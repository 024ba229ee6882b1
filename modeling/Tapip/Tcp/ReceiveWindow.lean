import Tapip.Tcp.Changes

/-! The window a sock offers and the room in its buffer. -/

namespace Tapip.Tcp.ReceiveWindow

open Net.Pkb Lib Foundation.Program Text Connection Session Changes

variable {fuel : ℕ} {buf : List UInt8} {len size rlen : ℤ} {seg : TcpSegment} {pkb : Pkbuf} {r : Received}

structure Accounted (t : TcpSock) : Prop where
  wnd : t.rcvWnd ≤ TCP_DEFAULT_WINDOW
  buf : ∀ c, t.rcvBuf = some c → 0 < c.size ∧ c.size ≤ TCP_DEFAULT_WINDOW.toNat ∧ 0 ≤ cbufUsed c ∧
    cbufFree c = t.rcvWnd.toNat

variable {t t' : TcpSock}

section Buffer

variable {c c' : Cbuf}

lemma writeLoop_counts (hlen : 0 ≤ len) (h : writeLoop fuel buf len c = .ok c') :
    c'.head = c.head + len ∧ c'.tail = c.tail ∧ c'.size = c.size := by
  induction fuel generalizing buf len c with
  | zero =>
    rw [writeLoop] at h
    split_ifs at h
    cases h
    exact ⟨by omega, rfl, rfl⟩
  | succ fuel ih =>
    rw [writeLoop] at h
    split_ifs at h
    · obtain ⟨h1, h2, h3⟩ := ih (by omega) h
      exact ⟨by rw [h1]; ring, h2, h3⟩
    · cases h
      exact ⟨by omega, rfl, rfl⟩

lemma writeCbuf_counts (h : writeCbuf c buf size = .ok (wlen, c')) :
    wlen = min (cbufFree c) size ∧ c'.head = c.head + max wlen 0 ∧ c'.tail = c.tail ∧ c'.size = c.size := by
  obtain ⟨c1, hloop, h⟩ := bind_eq_ok.mp h
  cases h
  refine ⟨rfl, ?_⟩
  by_cases hpos : 0 ≤ min (cbufFree c) size
  · rw [max_eq_left hpos]
    exact writeLoop_counts hpos hloop
  · have hz : (min (cbufFree c) size).toNat = 0 := by omega
    rw [hz, writeLoop, if_neg (by omega)] at hloop
    cases hloop
    exact ⟨by omega, rfl, rfl⟩

lemma readLoop_counts (hlen : 0 ≤ len) (h : readLoop fuel len c = .ok (buf, c')) :
    c'.head = c.head ∧ c'.tail = c.tail + len ∧ c'.size = c.size := by
  induction fuel generalizing buf len c with
  | zero =>
    rw [readLoop] at h
    split_ifs at h
    cases h
    exact ⟨rfl, by omega, rfl⟩
  | succ fuel ih =>
    rw [readLoop] at h
    split_ifs at h
    · obtain ⟨⟨b, c1⟩, hloop, h⟩ := bind_eq_ok.mp h
      cases h
      obtain ⟨h1, h2, h3⟩ := ih (by omega) hloop
      exact ⟨h1, by rw [h2]; ring, h3⟩
    · cases h
      exact ⟨rfl, by omega, rfl⟩

lemma readCbuf_counts (hsize : 0 ≤ size) (hused : 0 ≤ cbufUsed c) (h : readCbuf (some c) size = .ok (buf, rlen, o)) :
    rlen = min (cbufUsed c) size ∧ ∃ c', o = some c' ∧ cbufUsed c' = cbufUsed c - rlen ∧ c'.size = c.size := by
  obtain ⟨⟨b, c1⟩, hloop, h⟩ := bind_eq_ok.mp h
  obtain ⟨h1, h2, h3⟩ := readLoop_counts (by omega) hloop
  simp only [pure_eq_ok] at h
  split_ifs at h
  all_goals
    obtain ⟨-, rfl, rfl⟩ : b = buf ∧ min (cbufUsed c) size = rlen ∧ _ = o := by simpa using h
    refine ⟨rfl, _, rfl, ?_, h3⟩
    simp only [cbufUsed, h1, h2]
    ring

end Buffer

section Text

def Writable (t : TcpSock) : Prop := t.rcvBuf = none → t.rcvWnd ≠ 0

variable (h : Accounted t)

include h

lemma Accounted.rcvCbuf (hw : Writable t) (hc : rcvCbuf t = .ok c) :
    0 < c.size ∧ c.size ≤ TCP_DEFAULT_WINDOW.toNat ∧ 0 ≤ cbufUsed c ∧ cbufFree c = t.rcvWnd.toNat := by
  cases hb : t.rcvBuf with
  | some c1 =>
    simp only [Text.rcvCbuf, hb, Except.ok.injEq] at hc
    exact hc ▸ h.buf c1 hb
  | none =>
    simp only [Text.rcvCbuf, hb, allocCbuf] at hc
    split_ifs at hc
    cases hc
    have hle := UInt32.le_iff_toNat_le.mp h.wnd
    have hpos : 0 < t.rcvWnd.toNat := UInt32.pos_iff_ne_zero.mpr (hw hb)
    have hwin : TCP_DEFAULT_WINDOW.toNat = 4096 := rfl
    have hint : toInt t.rcvWnd = t.rcvWnd.toNat := if_pos (by omega)
    simp only [cbufUsed, cbufFree, hint]
    omega

lemma Accounted.tcpWriteBuf {data : List UInt8} {len : UInt32}
    (hw : Writable t) (hrun : tcpWriteBuf t data len = .ok (rlen, t')) :
    Accounted t' ∧ Writable t' := by
  obtain ⟨c, hc, hrun⟩ := bind_eq_ok.mp hrun
  obtain ⟨⟨n, c'⟩, hwrite, hrun⟩ := bind_eq_ok.mp hrun
  obtain ⟨hsize, hmax, hused, hfree⟩ := h.rcvCbuf hw hc
  obtain ⟨hn, hhead, htail, hsz⟩ := writeCbuf_counts hwrite
  have hle := UInt32.le_iff_toNat_le.mp h.wnd
  simp only [pure_eq_ok] at hrun
  simp only [cbufFree, cbufUsed] at hused hfree hn
  split_ifs at hrun with hpos
  · obtain ⟨-, rfl⟩ := ok_inj hrun
    have hnat : (UInt32.ofNat n.toNat).toNat = n.toNat := by
      simp only [UInt32.toNat_ofNat']
      have := t.rcvWnd.toNat_lt
      omega
    have hwnd : (t.rcvWnd - UInt32.ofNat n.toNat).toNat = t.rcvWnd.toNat - n.toNat := by
      rw [UInt32.toNat_sub_of_le _ _ (UInt32.le_iff_toNat_le.mpr (by omega)), hnat]
    refine ⟨⟨?_, fun c1 hc1 => ?_⟩, by simp [Writable]⟩
    · rw [UInt32.le_iff_toNat_le]
      simp only [hwnd]
      omega
    · cases hc1
      simp only [cbufFree, cbufUsed, hhead, htail, hsz, hwnd]
      omega
  · cases hrun
    refine ⟨⟨h.wnd, fun c1 hc1 => ?_⟩, by simp [Writable]⟩
    cases hc1
    simp only [cbufFree, cbufUsed, hhead, htail, hsz]
    omega

lemma Accounted.drains (hw : Writable t) (hrun : Drains queue t len freed rest t' len') : Accounted t' := by
  induction hrun with
  | rests => exact h
  | full _ hwrite => exact (h.tcpWriteBuf hw hwrite).1
  | next _ hwrite _ _ ih =>
    obtain ⟨h1, hw1⟩ := h.tcpWriteBuf hw hwrite
    exact ih h1 hw1

lemma Accounted.same (hb : t'.rcvBuf = t.rcvBuf) (hw : t'.rcvWnd = t.rcvWnd) : Accounted t' :=
  ⟨hw ▸ h.wnd, fun c hc => hw ▸ h.buf c (hb ▸ hc)⟩

lemma Accounted.tcpSegmentReass (hw : Writable t) (hrun : tcpSegmentReass t seg pkb = .ok r) : Accounted r.tsk := by
  rcases tcpSegmentReass_cases t seg pkb with he | ⟨before, after, seg', tr, -, -, he⟩
  · cases hrun.symm.trans he
    exact h
  rw [he] at hrun
  split_ifs at hrun
  · cases hrun
    exact h.same rfl rfl
  · obtain ⟨⟨freed, rest, t1, len⟩, hloop, hrun⟩ := bind_eq_ok.mp hrun
    cases hrun
    exact (h.drains hw (writeReass_drains hloop)).same rfl rfl

lemma Accounted.tcpRecvText (hrun : tcpRecvText t seg pkb = .ok r) : Accounted r.tsk := by
  simp only [Text.tcpRecvText] at hrun
  split at hrun
  · cases hrun
    exact h
  rename_i hwnd
  have hw : Writable t := fun _ => hwnd
  split at hrun
  · cases hrun
    exact h
  split at hrun
  · obtain ⟨⟨rlen, t1⟩, hwrite, hrun⟩ := bind_eq_ok.mp hrun
    cases hrun
    exact (h.tcpWriteBuf hw hwrite).1.same rfl rfl
  · obtain ⟨r', hr, hrun⟩ := bind_eq_ok.mp hrun
    cases hrun
    exact (h.tcpSegmentReass hw hr).same rfl rfl

lemma Accounted.tcpReadBuf (hlen : 0 ≤ len) (hrun : tcpReadBuf t len = .ok (buf, t')) : Accounted t' := by
  obtain ⟨⟨b, curlen, o⟩, hread, hrun⟩ := bind_eq_ok.mp hrun
  cases hrun
  have hle := UInt32.le_iff_toNat_le.mp h.wnd
  cases hb : t.rcvBuf with
  | none =>
    rw [hb] at hread
    obtain ⟨-, rfl, rfl⟩ := by simpa [readCbuf] using hread
    exact ⟨by simpa [UInt32.ofInt] using h.wnd, by simp⟩
  | some c =>
    obtain ⟨hsize, hmax, hused, hfree⟩ := h.buf c hb
    rw [hb] at hread
    obtain ⟨rfl, c', rfl, hused', hsz⟩ := readCbuf_counts hlen hused hread
    have hwin : TCP_DEFAULT_WINDOW.toNat = 4096 := rfl
    simp only [cbufFree] at hfree
    have hnat : (UInt32.ofInt (min (cbufUsed c) len)).toNat = (min (cbufUsed c) len).toNat := by
      simp only [UInt32.ofInt, UInt32.toNat_ofNat']
      omega
    have hwnd : (t.rcvWnd + UInt32.ofInt (min (cbufUsed c) len)).toNat =
        t.rcvWnd.toNat + (min (cbufUsed c) len).toNat := by
      rw [UInt32.toNat_add, hnat]
      omega
    refine ⟨?_, fun c1 hc1 => ?_⟩
    · rw [UInt32.le_iff_toNat_le]
      simp only [hwnd]
      omega
    · cases hc1
      simp only [cbufFree, hused', hsz, hwnd]
      omega

end Text

section Run

variable {net : Net} {id : ℕ} {s s' : Local} {α β : Type}

def Good (id : ℕ) (s : Local) : Prop := ∀ t, s.sock id = some t → Accounted t

def Saves {α : Type} (id : ℕ) (x : Prog Local α) : Prop := Respects (fun s s' => Good id s → Good id s') x

lemma Saves.bind {x : Prog Local α} {f : α → Prog Local β} (hx : Saves id x) (hf : ∀ a, Saves id (f a)) :
    Saves id (x >>= f) := Respects.bind (fun h h' hg => h' (h hg)) hx hf

lemma Good.keeps (h : Good id s) (hk : Keeps id R P s s')
    (hR : ∀ {t t'}, R t t' → Accounted t → Accounted t') : Good id s' := by
  intro t' ht'
  obtain ⟨t, ht, hr⟩ := hk.1 t' ht'
  exact hR hr (h t ht)

lemma Saves.aside {x : Prog Local α} (h : Moves id (Same tcb) x) : Saves id x := by
  intro s a s' hrun hg
  refine hg.keeps (h s a s' hrun) fun hside ht => ?_
  exact ht.same (alike hside).rcvBuf (alike hside).rcvWnd

lemma saves_modifySk {j : ℕ} {f : TcpSock → TcpSock} (hf : ∀ t, Accounted t → Accounted (f t)) :
    Saves id (modifySk net.env j f) := by
  intro s u s' hrun hg t' ht'
  obtain ⟨t, ht, rfl⟩ := modifySk_inv hrun
  by_cases hj : id = j
  · subst hj
    rw [sock_put] at ht'
    exact Option.some.inj ht' ▸ hf t (hg t ht)
  · refine hg t' ?_
    simpa [Local.sock, Local.put, Function.update_of_ne hj] using ht'

lemma saves_pure {a : α} : Saves id (pure a : Prog Local α) := .aside (keeps_pure a)

lemma saves_getSk (j : ℕ) : Saves id (getSk net.env j) := .aside (keeps_getSk j)

lemma Accounted.change (hc : Change seg t t') (h : Accounted t) : Accounted t' := by
  cases hc with
  | aside hside => exact h.same (alike hside).rcvBuf (alike hside).rcvWnd
  | cut | syn | completed | acked => exact h.same rfl rfl
  | text _ _ _ htext => exact h.tcpRecvText htext
  | fin =>
    refine h.same ?_ ?_ <;> cases hs : t.state <;> simp [finState, hs, setRefcnt]

lemma accounted_new {t : TcpSock} (hb : t.rcvBuf = none) (hw : t.rcvWnd = TCP_DEFAULT_WINDOW) : Accounted t :=
  ⟨hw ▸ UInt32.le_refl _, fun c hc => by simp [hb] at hc⟩

lemma saves_update {f : TcpWorld → TcpWorld} {k : ℕ} {o : Option TcpSock}
    (hf : ∀ w, (f w).socks = Function.update w.socks k o) (ho : ∀ t, o = some t → Accounted t) :
    Saves id (modifyWorld net.env f) := by
  intro s u s' hrun hg t' ht'
  cases hrun
  simp only [Local.sock, Net.env, hf] at ht'
  by_cases hk : id = k
  · subst hk
    rw [Function.update_self] at ht'
    exact ho t' ht'
  · rw [Function.update_of_ne hk] at ht'
    exact hg t' ht'

lemma saves_tcpListenChildSock (j : ℕ) (seg : TcpSegment) : Saves id (tcpListenChildSock net.env j seg) := by
  refine Saves.bind (.aside (keeps_getWorld)) fun w => ?_
  refine Saves.bind (saves_update (fun _ => rfl) ?_) fun _ => ?_
  · intro t ht
    cases ht
    exact accounted_new rfl rfl
  refine Saves.bind (.aside (aside_tcpHash _)) fun b => ?_
  split_ifs
  · exact Saves.bind (saves_update (o := none) (fun _ => rfl) (by simp)) fun _ => saves_pure
  · refine Saves.bind (.aside (aside_getSock j)) fun _ => ?_
    refine Saves.bind (saves_modifySk ?_) fun _ => Saves.bind (saves_modifySk ?_) fun _ => ?_
    · exact fun t ht => ht.same rfl rfl
    · exact fun t ht => ht.same rfl rfl
    · exact Saves.bind (.aside (aside_getSock _)) fun _ => saves_pure

lemma saves_tcpListen (pkb : Pkbuf) (seg : TcpSegment) (j : ℕ) : Saves id (tcpListen net.env pkb seg j) := by
  have hfree : Saves id (net.env.freePkb pkb) := saves_pure
  rw [tcpListen]
  split_ifs
  · exact hfree
  · exact (Saves.aside (aside_tcpSendReset seg)).bind fun _ => hfree
  · exact hfree
  · refine Saves.bind (saves_tcpListenChildSock j seg) fun new => ?_
    cases new with
    | none => exact hfree
    | some new =>
      have hiss : Saves id (allocNewIss net.env) :=
        Saves.bind (.aside (keeps_getWorld)) fun w =>
          Saves.bind (.aside (keeps_modifyWorld fun _ => rfl)) fun _ => saves_pure
      refine Saves.bind hiss fun iss => Saves.bind (saves_modifySk ?_) fun _ =>
        Saves.bind (.aside (aside_tcpSendSynack new seg)) fun _ =>
          Saves.bind (saves_modifySk ?_) fun _ => hfree
      · exact fun t ht => ht.same rfl rfl
      · exact fun t ht => ht.same rfl rfl

lemma saves_tcpProcess (pkb : Pkbuf) (seg : TcpSegment) : Saves id (tcpProcess net.env pkb seg (some id)) := by
  intro s u s' hrun hg
  obtain ⟨t, s0, rfl, ht, hrest⟩ := getSk_bind_inv hrun
  by_cases hl : t.state = .listen
  · simp only [hl] at hrest
    exact saves_tcpListen pkb seg id _ _ _ hrest hg
  · exact hg.keeps (tcpProcess_alters ht hl hrun) fun ha h => ha.invariant (fun hc => .change hc) h

lemma saves_tcpClose : Saves id (tcpClose net.env id) := by
  have hstate : ∀ st, Saves id (modifySk net.env id (fun t => { t with state := st })) :=
    fun st => saves_modifySk fun t ht => ht.same rfl rfl
  have hfin : ∀ st, Saves id (sendFin net.env id st) := fun st =>
    Saves.bind (hstate st) fun _ => Saves.bind (.aside (keeps_tcpSendFin (fun _ _ => rfl)
      (fun _ _ => trivial) id)) fun _ => saves_modifySk fun t ht => ht.same rfl rfl
  have hend : Saves id (freeText net id) := by
    rw [freeText_eq]
    exact saves_modifySk fun t ht => ⟨ht.wnd, nofun⟩
  refine Saves.bind (saves_getSk id) fun t => ?_
  cases t.state <;> simp only
  case listen =>
    exact Saves.bind (.aside (keeps_tcpClearListenQueue blind_tcb id _)) fun _ =>
      Saves.bind (.aside (aside_tcpUnhash id)) fun _ =>
        Saves.bind (.aside (aside_tcpUnbhash id)) fun _ => Saves.bind (hstate _) fun _ => hend
  case established | closeWait => exact Saves.bind (hfin _) fun _ => hend
  all_goals exact hend

lemma saves_recvGoOn (hl : ∀ r, Saves id (loop r)) : Saves id (recvGoOn net.env id len loop rlen) := by
  refine Saves.bind (saves_getSk id) fun t => ?_
  split_ifs
  · exact saves_pure
  · exact .aside keeps_fault
  · exact Saves.bind (saves_modifySk fun t ht => ht.same rfl rfl) fun _ => saves_pure
  · exact hl _

lemma saves_recvLoop (len : ℤ) (fuel : ℕ) (rlen : ℤ) : Saves id (recvLoop net.env id len fuel rlen) := by
  induction fuel generalizing rlen with
  | zero =>
    rw [recvLoop]
    split_ifs
    · exact .aside keeps_fault
    · exact saves_pure
  | succ fuel ih =>
    rw [recvLoop]
    split_ifs with hlt
    · intro s r s' hrun hg
      obtain ⟨t, s0, rfl, ht, hrest⟩ := getSk_bind_inv hrun
      obtain ⟨⟨buf, t1⟩, s1, hread, hlast⟩ := bind_inv hrest
      obtain ⟨rfl, htext⟩ := liftExcept_inv hread
      have h1 : Accounted t1 := (hg t ht).tcpReadBuf (by omega) htext
      exact Saves.bind (saves_modifySk fun _ _ => h1) (fun _ => saves_recvGoOn fun r => ih r) _ _ _ hlast hg
    · exact saves_pure

inductive Op
  | segment (pkb : Pkbuf) (seg : TcpSegment)
  | read (len : ℤ)
  | wake (len rlen : ℤ) (err : Bool)
  | close

variable (net) in
def perform (id : ℕ) : Op → Prog Local Unit
  | .segment pkb seg => tcpProcess net.env pkb seg (some id)
  | .read len => do let _ ← tcpRecvBuf net.env id len
  | .wake len rlen err => do let _ ← tcpRecvBufWoken net.env id len rlen err
  | .close => tcpClose net.env id

inductive Run (net : Net) (id : ℕ) : Local → Prop
  | start {s : Local} {t : TcpSock} : s.sock id = some t → t.rcvBuf = none →
      t.rcvWnd = TCP_DEFAULT_WINDOW → Run net id s
  | step {s s' : Local} {op : Op} : Run net id s → perform net id op s = .ok ((), s') → Run net id s'

lemma saves_perform (op : Op) : Saves id (perform net id op) := by
  cases op with
  | segment pkb seg => exact saves_tcpProcess pkb seg
  | close => exact saves_tcpClose
  | read len =>
    refine Saves.bind (Saves.bind (saves_getSk id) fun t => ?_) fun _ => saves_pure
    split_ifs
    · exact saves_recvLoop _ _ _
    · exact saves_pure
  | wake len rlen err =>
    refine Saves.bind ?_ fun _ => saves_pure
    rw [tcpRecvBufWoken]
    split_ifs
    · exact saves_pure
    · exact saves_pure
    · exact saves_recvGoOn fun r => saves_recvLoop _ _ _

lemma Run.good {net : Net} (h : Run net id s) : Good id s := by
  induction h with
  | start hs hb hw =>
    intro t1 ht1
    cases Option.mem_unique hs ht1
    exact accounted_new hb hw
  | step _ hrun ih => exact saves_perform _ _ _ _ hrun ih

theorem rcvWnd_eq_free {net : Net} (h : Run net id s) (ht : s.sock id = some t) : t.rcvWnd ≤ TCP_DEFAULT_WINDOW ∧
      ∀ c, t.rcvBuf = some c → 0 < c.size ∧ (t.rcvWnd.toNat : ℤ) = cbufFree c := by
  have ha := h.good t ht
  exact ⟨ha.wnd, fun c hc => ⟨(ha.buf c hc).1, (ha.buf c hc).2.2.2.symm⟩⟩

end Run

def readerSock : TcpSock :=
  { boundSock with state := .established, rcvNxt := 501, sndUna := 101, sndNxt := 101 }

def after (op : Op) (s : Local) : Local := finalState (perform online 0 op) s

def arrived : Local := after (.segment (allocPkb 0 0) (fromPeer 501 101 [1, 2, 3])) (oneSock readerSock)

def closedEarly : Local := after .close (after (.read 2) arrived)

def refilled : Local := after (.segment (allocPkb 1 0) (fromPeer 504 101 [4])) closedEarly

theorem rcvWnd_eq_free_refilled : ∃ t c, Run online 0 refilled ∧ refilled.sock 0 = some t ∧
    t.rcvBuf = some c ∧ c.size = 4095 ∧ (t.rcvWnd.toNat : ℤ) = cbufFree c := by
  have h0 : Run online 0 (oneSock readerSock) := .start rfl rfl rfl
  have h1 : Run online 0 arrived := @Run.step online 0 (oneSock readerSock) _
    (.segment (allocPkb 0 0) (fromPeer 501 101 [1, 2, 3])) h0 (run_of_outcome (by decide +kernel))
  have h2 : Run online 0 (after (.read 2) arrived) :=
    @Run.step online 0 arrived _ (.read 2) h1 (run_of_outcome (by decide +kernel))
  have h3 : Run online 0 closedEarly :=
    @Run.step online 0 (after (.read 2) arrived) _ .close h2 (run_of_outcome (by decide +kernel))
  have h4 : Run online 0 refilled := @Run.step online 0 closedEarly _
    (.segment (allocPkb 1 0) (fromPeer 504 101 [4])) h3 (run_of_outcome (by decide +kernel))
  have hsize : (refilled.sock 0).bind (fun t => t.rcvBuf.map Cbuf.size) = some 4095 := by decide +kernel
  obtain ⟨t, ht, hbuf⟩ := Option.bind_eq_some_iff.mp hsize
  obtain ⟨c, hc, hsz⟩ := Option.map_eq_some_iff.mp hbuf
  exact ⟨t, c, h4, ht, hc, hsz, ((rcvWnd_eq_free h4 ht).2 c hc).2⟩

end Tapip.Tcp.ReceiveWindow
