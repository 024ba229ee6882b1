import Tapip.Tcp.Session

/-! Whether the numbers of a connection matter only by their differences. -/

namespace Tapip.Tcp.Shift

open Net.Pkb Lib Foundation.Program Foundation.Tiling Text Connection Session Tcp.Stream ReassQueue

def shiftHead (k : UInt32) (trh : TcpReassHead) : TcpReassHead := { trh with seq := trh.seq + k }

-- `k` goes on top of what the peer numbers, `j` on top of what the sock numbers.
def shiftSock (k j : UInt32) (tsk : TcpSock) : TcpSock :=
  { tsk with
    rcvNxt := tsk.rcvNxt + k
    irs := tsk.irs + k
    sndWl1 := tsk.sndWl1 + k
    rcvReass := tsk.rcvReass.map (shiftHead k)
    iss := tsk.iss + j
    sndUna := tsk.sndUna + j
    sndNxt := tsk.sndNxt + j
    sndWl2 := tsk.sndWl2 + j }

def shiftSegment (k j : UInt32) (seg : TcpSegment) : TcpSegment :=
  { seg with seq := seg.seq + k, lastseq := seg.lastseq + k, ack := seg.ack + j }

-- A reset that acknowledges has sequence number zero, and the acknowledgment number counts only
-- with its flag.
def shiftOut (k j : UInt32) (out : OutTcp) : OutTcp :=
  { out with
    seq := if out.rst && out.ack then out.seq else out.seq + j
    ackn := if out.ack then out.ackn + k else out.ackn }

def shiftSent (k j : UInt32) (e : Sent) : Sent := { e with out := shiftOut k j e.out }

def shiftLocal (k j : UInt32) (id : ℕ) (s : Local) : Local where
  tcp := { s.tcp with socks := Function.update s.tcp.socks id ((s.sock id).map (shiftSock k j)) }
  sent := s.sent.map (shiftSent k j)

def Equivariant (net : Net) (k j : UInt32) (id : ℕ) (s : Local) (pkb : Pkbuf) (seg : TcpSegment) : Prop :=
  tcpProcess net.env pkb (shiftSegment k j seg) (some id) (shiftLocal k j id s) =
    (tcpProcess net.env pkb seg (some id) s).map fun r => (r.1, shiftLocal k j id r.2)

abbrev Follows (k j : UInt32) (id : ℕ) {α : Type} (x y : Prog Local α) (s : Local) : Prop :=
  Commutes (shiftLocal k j id) (fun a => a) x y s

variable {k j : UInt32} {id : ℕ} {s s' : Local} {tsk t : TcpSock} {seg seg' : TcpSegment} {pkb : Pkbuf} {net : Net}

section Steps

lemma Follows.bind {x y : Prog Local α} {f h : α → Prog Local β} (hx : Follows k j id x y s)
    (hf : ∀ a s', Follows k j id (f a) (h a) s') : Follows k j id (x >>= f) (y >>= h) s :=
  Commutes.bind hx fun a s' _ => hf a s'

lemma shift_right_comm (a b c : UInt32) : a + b + c = a + c + b := by
  grind

lemma sock_shiftLocal : (shiftLocal k j id s).sock id = (s.sock id).map (shiftSock k j) := by
  simp [shiftLocal, Local.sock]

lemma shiftLocal_put (t : TcpSock) : shiftLocal k j id (s.put id t) = (shiftLocal k j id s).put id (shiftSock k j t) := by
  simp [shiftLocal, Local.put, Local.sock]

lemma commutes_getSk : Commutes (shiftLocal k j id) (shiftSock k j) (getSk net.env id) (getSk net.env id) s := by
  cases h : s.sock id with
  | none =>
    have h' : (shiftLocal k j id s).sock id = none := by rw [sock_shiftLocal, h]; rfl
    simp only [Local.sock] at h h'
    simp [Commutes, getSk, Net.env, h, h', Except.map]
  | some t =>
    have h' : (shiftLocal k j id s).sock id = some (shiftSock k j t) := by rw [sock_shiftLocal, h]; rfl
    rw [Commutes, getSk_run h, getSk_run h']
    rfl

lemma follows_getSk {f f' : TcpSock → Prog Local α}
    (h : ∀ t, s.sock id = some t → Follows k j id (f t) (f' (shiftSock k j t)) s) :
    Follows k j id (getSk net.env id >>= f) (getSk net.env id >>= f') s := by
  refine (commutes_getSk).bind fun t s' hget => ?_
  obtain ⟨ht, rfl⟩ := getSk_inv hget
  exact h t ht

lemma follows_modifySk {f f' : TcpSock → TcpSock}
    (hf : ∀ t, s.sock id = some t → f' (shiftSock k j t) = shiftSock k j (f t)) :
    Follows k j id (modifySk net.env id f) (modifySk net.env id f') s := by
  refine follows_getSk fun t ht => ?_
  have hput : (shiftLocal k j id s).put id (f' (shiftSock k j t)) = shiftLocal k j id (s.put id (f t)) := by
    rw [hf t ht, shiftLocal_put]
  exact congrArg (fun s => Except.ok ((), s)) hput

lemma follows_modifyWorld {f : TcpWorld → TcpWorld} (hs : ∀ w, (f w).socks = w.socks)
    (hf : ∀ w socks, f { w with socks := socks } = { f w with socks := socks }) :
    Follows k j id (modifyWorld net.env f) (modifyWorld net.env f) s := by
  have hw : { shiftLocal k j id s with tcp := f (shiftLocal k j id s).tcp } = shiftLocal k j id { s with tcp := f s.tcp } := by
    rw [shiftLocal, hf, shiftLocal, Local.sock, Local.sock, hs]
  exact congrArg (fun s => Except.ok ((), s)) hw

lemma follows_freeSock : Follows k j id (freeSock net.env id) (freeSock net.env id) s := by
  refine follows_getSk fun t ht => .ite (fun _ => ?_) fun _ => follows_modifySk fun _ _ => rfl
  simp [Commutes, modifyWorld, Net.env, shiftLocal, Local.sock, Except.map]

lemma follows_tcpUnhash : Follows k j id (tcpUnhash net.env id) (tcpUnhash net.env id) s := by
  refine follows_getSk fun t ht => .ite (fun _ => ?_) fun _ => follows_getSk fun _ _ => commutes_pure _ _
  refine Follows.bind (follows_modifySk fun _ _ => rfl) fun _ _ => ?_
  refine Follows.bind (follows_modifyWorld (fun _ => rfl) fun _ _ => rfl) fun _ _ => ?_
  exact Follows.bind (follows_freeSock) fun _ _ => follows_getSk fun _ _ => commutes_pure _ _

lemma follows_tcpUnbhash : Follows k j id (tcpUnbhash net.env id) (tcpUnbhash net.env id) s := by
  refine follows_getSk fun t ht => .ite (fun _ => ?_) fun _ => commutes_pure _ _
  refine Follows.bind (follows_modifySk fun _ _ => rfl) fun _ _ => ?_
  exact Follows.bind (follows_modifyWorld (fun _ => rfl) fun _ _ => rfl) fun _ _ => follows_freeSock

lemma follows_tcpSetTimewaitTimer :
    Follows k j id (tcpSetTimewaitTimer net.env id) (tcpSetTimewaitTimer net.env id) s := by
  refine Follows.bind (follows_modifySk fun _ _ => rfl) fun _ _ => ?_
  exact Follows.bind (follows_modifyWorld (fun _ => rfl) fun _ _ => rfl) fun _ _ =>
    follows_modifySk fun _ _ => rfl

lemma shiftLocal_emitted (dst : Option RtEntry) (saddr daddr : UInt32) (out : OutTcp) :
    shiftLocal k j id (emitted s dst saddr daddr out) =
      emitted (shiftLocal k j id s) dst saddr daddr (shiftOut k j out) := by
  simp only [emitted]
  split_ifs
  · simp [shiftLocal, shiftSent, Local.sock]
  · rfl

lemma resetOf_shift (seg : TcpSegment) : resetOf (shiftSegment k j seg) = shiftOut k j (resetOf seg) := by
  cases h : seg.ackBit <;> simp [resetOf, shiftSegment, shiftOut, h, shift_right_comm]

lemma follows_tcpSendReset (seg : TcpSegment) :
    Follows k j id (tcpSendReset net.env seg) (tcpSendReset net.env (shiftSegment k j seg)) s := by
  refine .ite (fun _ => commutes_pure _ _) fun _ => ?_
  have hrun : ∀ s seg pkb, tcpSendOut net.env none pkb (resetOf seg) (some seg) s =
      .ok ((), emitted s (net.route seg.iphdrSrc) seg.iphdrDst seg.iphdrSrc (resetOf seg)) := by
    intro s seg pkb
    have hroute : tcpRoute net.env none seg.iphdrSrc s = .ok (net.route seg.iphdrSrc, s) := by
      cases hr : net.route seg.iphdrSrc <;> simp [tcpRoute, Net.env, hr]
    rw [tcpSendOut, bind_run (pure_run _)]
    dsimp only
    rw [bind_run hroute]
    cases net.route seg.iphdrSrc <;> rfl
  refine Follows.bind (commutes_pure (allocPkb 0 _) s) fun opkb s => ?_
  rw [Follows, Commutes, hrun, hrun, resetOf_shift, Except.map, shiftLocal_emitted]
  rfl

lemma follows_drop (seg : TcpSegment) (pkb : Pkbuf) :
    Follows k j id (drop net.env id seg pkb) (drop net.env id (shiftSegment k j seg) pkb) s := by
  refine follows_getSk fun t ht => .ite (fun _ => ?_) fun _ => commutes_pure _ _
  refine Follows.bind ?_ fun _ _ => commutes_pure _ _
  have ht' : (shiftLocal k j id s).sock id = some (shiftSock k j t) := by rw [sock_shiftLocal, ht]; rfl
  cases hr : seg.rst with
  | true =>
    simp only [tcpSendAck, shiftSegment, hr, if_true]
    exact commutes_pure _ _
  | false =>
    rw [Follows, Commutes, tcpSendAck_run ht hr,
      tcpSendAck_run ht' (show (shiftSegment k j seg).rst = false from hr), Except.map, shiftLocal_emitted, shiftLocal_put]
    rfl

lemma follows_checkRst : Follows k j id (checkRst net.env id) (checkRst net.env id) s := by
  have hend : ∀ s, Follows k j id (do
      modifySk net.env id (fun t => { t with state := .closed })
      tcpUnhash net.env id
      tcpUnbhash net.env id) (do
      modifySk net.env id (fun t => { t with state := .closed })
      tcpUnhash net.env id
      tcpUnbhash net.env id) s := fun s =>
    Follows.bind (follows_modifySk fun _ _ => rfl) fun _ _ =>
      Follows.bind (follows_tcpUnhash) fun _ _ => follows_tcpUnbhash
  refine follows_getSk fun t ht => .ite (fun _ => ?_) fun _ => hend s
  exact Follows.bind (follows_tcpUnhash) fun _ _ => hend _

lemma follows_checkSyn (seg : TcpSegment) :
    Follows k j id (checkSyn net.env id seg) (checkSyn net.env id (shiftSegment k j seg)) s := by
  have hend : ∀ s, Follows k j id (do
      modifySk net.env id (fun t => { t with state := .closed })
      freeSock net.env id) (do
      modifySk net.env id (fun t => { t with state := .closed })
      freeSock net.env id) s := fun s =>
    Follows.bind (follows_modifySk fun _ _ => rfl) fun _ _ => follows_freeSock
  refine .ite (fun _ => ?_) fun _ => commutes_pure _ _
  refine Follows.bind (follows_tcpSendReset seg) fun _ s1 => follows_getSk fun t ht =>
    .ite (fun _ => ?_) fun _ => hend _
  exact Follows.bind (follows_tcpUnhash) fun _ _ => hend _

lemma follows_checkFin (seg : TcpSegment) :
    Follows k j id (checkFin net.env id seg) (checkFin net.env id (shiftSegment k j seg)) s := by
  refine .ite (fun _ => ?_) fun _ => commutes_pure _ _
  have hlast : ∀ s, Follows k j id (modifySk net.env id fun t => { t with rcvNxt := seg.seq + 1, ackNow := true })
      (modifySk net.env id fun t => { t with rcvNxt := (shiftSegment k j seg).seq + 1, ackNow := true }) s :=
    fun s => follows_modifySk fun t _ => by simp [shiftSock, shiftSegment, shift_right_comm]
  refine follows_getSk fun t ht => ?_
  have hstate : (shiftSock k j t).state = t.state := rfl
  cases hs : t.state <;> simp only [hstate, hs]
  case synRecv | established | finWait1 | timeWait =>
    exact Follows.bind (follows_modifySk fun _ _ => rfl) fun _ _ => hlast _
  case finWait2 => exact Follows.bind (follows_tcpSetTimewaitTimer) fun _ _ => hlast _
  all_goals exact hlast _

end Steps

section Numbers

/-- How far `x` moves when `k` is added to it. -/
def drift (k x : UInt32) : ℤ := (x + k).toNat - x.toNat

variable {x y z : UInt32}

lemma lt_shift (h : drift k x = drift k y) : x + k < y + k ↔ x < y := by
  simp only [drift] at h
  simp only [UInt32.lt_iff_toNat_lt]
  omega

lemma le_shift (h : drift k x = drift k y) : x + k ≤ y + k ↔ x ≤ y := by
  rw [← UInt32.not_lt, lt_shift h.symm, UInt32.not_lt]

lemma drift_between (h : drift k x = drift k y) (hx : x ≤ z) (hy : z ≤ y) : drift k z = drift k x := by
  simp only [drift, UInt32.toNat_add, UInt32.le_iff_toNat_le] at *
  have := x.toNat_lt
  have := y.toNat_lt
  have := z.toNat_lt
  have := k.toNat_lt
  omega

lemma sub_shift (x y k : UInt32) : x + k - (y + k) = x - y := by
  grind

lemma eq_shift : x + k = y + k ↔ x = y := by
  grind

end Numbers

section Tests

def rcvEnd (tsk : TcpSock) : UInt32 := tsk.rcvNxt + (if tsk.rcvWnd = 0 then 1 else tsk.rcvWnd)

/-- What `tcp_segment_reass` reads of the queue: its numbers, the number `floor` where the list head stands, and
the half of a sequence number that the entry writes over the address of the peer. -/
structure Level (k rcvNxt : UInt32) (queue : List TcpReassHead) (floor : UInt32) (seg : TcpSegment) : Prop where
  waiting : InOrder rcvNxt queue
  ends : ∀ trh ∈ queue, drift k trh.seq = drift k rcvNxt ∧ drift k (trh.seq + trh.len) = drift k rcvNxt
  fits : seg.seq.toNat + seg.dlen.toNat < 2 ^ 32
  last : drift k (seg.seq + seg.dlen) = drift k rcvNxt
  head : floor ≤ rcvNxt ∧ floor ≤ rcvNxt + k
  half : ∀ x ∈ rcvNxt :: seg.seq :: queue.map (fun trh => trh.seq + trh.len), (x + k) >>> 16 = x >>> 16

/-- No number that is compared goes over the end of the numbers: those of the peer move together, and those of
the sock. -/
structure Unwrapped (k j : UInt32) (tsk : TcpSock) (seg : TcpSegment) : Prop where
  window : ∀ x ∈ [rcvEnd tsk, seg.seq, seg.lastseq], drift k x = drift k tsk.rcvNxt
  acks : seg.rst = false → seg.ackBit = true → drift k tsk.sndWl1 = drift k seg.seq ∧
    ∀ x ∈ [tsk.sndNxt, tsk.sndWl2, seg.ack], drift j x = drift j tsk.sndUna
  text : receives tsk.state = true → hasText seg = true → tsk.rcvReass = [] ∧ seg.seq ≤ tsk.rcvNxt ∨
    ∀ wnd ∈ [tsk.sndWnd, seg.wnd], Level k tsk.rcvNxt tsk.rcvReass (wnd + tsk.sndUp) seg

lemma Unwrapped.seqCheck (h : Unwrapped k j tsk seg) :
    seqCheck (shiftSegment k j seg) (shiftSock k j tsk) = seqCheck seg tsk := by
  obtain ⟨hend, hseq, hlast⟩ := by simpa using h.window
  have hlt : seg.seq + k < rcvEnd (shiftSock k j tsk) ↔ seg.seq < rcvEnd tsk := by
    rw [← lt_shift (hseq.trans hend.symm), rcvEnd, rcvEnd, shift_right_comm tsk.rcvNxt]
    rfl
  exact congrArg₂ and (decide_eq_decide.mpr hlt) (decide_eq_decide.mpr (le_shift hlast.symm))

section Ack

variable (h : Unwrapped k j tsk seg) (hr : seg.rst = false) (ha : seg.ackBit = true)

include h hr ha

lemma Unwrapped.acksNew : acksNew (shiftSock k j tsk) (shiftSegment k j seg) = acksNew tsk seg := by
  obtain ⟨-, hown⟩ := h.acks hr ha
  obtain ⟨hnxt, -, hack⟩ := by simpa using hown
  simp only [Tcp.acksNew, shiftSock, shiftSegment, lt_shift hack.symm, le_shift (hack.trans hnxt.symm)]

lemma Unwrapped.future : (shiftSegment k j seg).ack > (shiftSock k j tsk).sndNxt ↔ seg.ack > tsk.sndNxt := by
  obtain ⟨-, hown⟩ := h.acks hr ha
  obtain ⟨hnxt, -, hack⟩ := by simpa using hown
  exact lt_shift (hnxt.trans hack.symm)

lemma Unwrapped.tcpUpdateWindow :
    tcpUpdateWindow (shiftSock k j tsk) (shiftSegment k j seg) = shiftSock k j (tcpUpdateWindow tsk seg) := by
  obtain ⟨hwl, hown⟩ := h.acks hr ha
  obtain ⟨hnxt, hwl2, hack⟩ := by simpa using hown
  have hnewer : windowNewer (shiftSock k j tsk) (shiftSegment k j seg) = windowNewer tsk seg := by
    simp only [windowNewer, shiftSock, shiftSegment, le_shift hack.symm, le_shift (hack.trans hnxt.symm), lt_shift hwl,
      eq_shift, le_shift (hwl2.trans hack.symm)]
  rw [Tcp.tcpUpdateWindow, Tcp.tcpUpdateWindow, hnewer]
  split_ifs <;> rfl

end Ack

end Tests

section Text

variable {d : ℤ} {nseq : UInt32} {data : List UInt8} {len : UInt32} {rlen : ℤ} {queue : List TcpReassHead}

def shiftTrimmed (k j : UInt32) (t : Trimmed) : Trimmed :=
  { t with rest := t.rest.map (shiftHead k), seg := shiftSegment k j t.seg }

def shiftReceived (k j : UInt32) (r : Received) : Received :=
  { r with tsk := shiftSock k j r.tsk, seg := shiftSegment k j r.seg }

lemma adjacentSegmentHead_shift (h : drift k nseq = drift k seg.seq) :
    adjacentSegmentHead (nseq + k) (shiftSegment k j seg) = (adjacentSegmentHead nseq seg).map (shiftSegment k j) := by
  simp only [adjacentSegmentHead, shiftSegment, gt_iff_lt, lt_shift h.symm, sub_shift]
  split_ifs <;> rfl

lemma tcpWriteBuf_shift : tcpWriteBuf (shiftSock k j tsk) data len =
    (tcpWriteBuf tsk data len).map fun p => (p.1, shiftSock k j p.2) := by
  have hbuf : rcvCbuf (shiftSock k j tsk) = rcvCbuf tsk := rfl
  rw [tcpWriteBuf, tcpWriteBuf, hbuf]
  cases rcvCbuf tsk with
  | error e => rfl
  | ok c =>
    simp only [ok_bind]
    cases writeCbuf c data (toInt len) with
    | error e => rfl
    | ok p =>
      simp only [ok_bind, shiftSock, shift_right_comm tsk.rcvNxt k]
      split_ifs <;> rfl

lemma tcpWriteBuf_rcvNxt (h : tcpWriteBuf tsk data len = .ok (rlen, t)) (hpos : 0 < rlen) :
    t.rcvNxt = tsk.rcvNxt + UInt32.ofNat rlen.toNat ∧ rlen.toNat ≤ len.toNat := by
  obtain ⟨c, -, h⟩ := bind_eq_ok.mp h
  obtain ⟨⟨n, c'⟩, hwrite, h⟩ := bind_eq_ok.mp h
  obtain ⟨c1, -, hret⟩ := bind_eq_ok.mp hwrite
  cases hret
  simp only [pure_eq_ok] at h
  have hle := toInt_le len
  split_ifs at h with hn
  · cases h
    exact ⟨rfl, by omega⟩
  · cases h
    exact absurd hpos hn

def Whole (k : UInt32) (d : ℤ) (trh : TcpReassHead) : Prop :=
  first trh + size trh < 2 ^ 32 ∧ drift k trh.seq = d ∧ drift k (trh.seq + trh.len) = d

lemma writeReass_shift (hq : ∀ trh ∈ queue, Whole k d trh) (hn : drift k tsk.rcvNxt = d) (n : ℤ) :
    writeReass (queue.map (shiftHead k)) (shiftSock k j tsk) n =
      (writeReass queue tsk n).map fun r => (r.1, r.2.1.map (shiftHead k), shiftSock k j r.2.2.1, r.2.2.2) := by
  induction queue generalizing tsk n with
  | nil => rfl
  | cons trh queue ih =>
    obtain ⟨hfit, hseq, hend⟩ := hq trh List.mem_cons_self
    have hgt : (shiftHead k trh).seq > (shiftSock k j tsk).rcvNxt ↔ trh.seq > tsk.rcvNxt := lt_shift (hn.trans hseq.symm)
    have heq : (shiftHead k trh).seq = (shiftSock k j tsk).rcvNxt ↔ trh.seq = tsk.rcvNxt := eq_shift
    simp only [List.map_cons, writeReass, hgt, heq]
    split_ifs with h1 h2
    · rfl
    · rw [show (shiftHead k trh).data = trh.data from rfl, show (shiftHead k trh).len = trh.len from rfl,
        tcpWriteBuf_shift]
      cases hw : tcpWriteBuf tsk trh.data trh.len with
      | error e => rfl
      | ok p =>
        obtain ⟨rlen, t⟩ := p
        simp only [Except.map, ok_bind]
        split_ifs with hle
        · rfl
        · have hmoved : drift k t.rcvNxt = d := by
            obtain ⟨hnxt, hlen⟩ := tcpWriteBuf_rcvNxt hw (not_le.mp hle)
            simp only [first, size] at hfit
            have hsum : (trh.seq + trh.len).toNat = trh.seq.toNat + trh.len.toNat := by
              rw [UInt32.toNat_add, Nat.mod_eq_of_lt hfit]
            have hnxt' : t.rcvNxt.toNat = trh.seq.toNat + rlen.toNat := by
              rw [hnxt, ← h2, UInt32.toNat_add, UInt32.toNat_ofNat_of_lt' (show rlen.toNat < 2 ^ 32 by omega),
                Nat.mod_eq_of_lt (by omega)]
            rw [← hseq]
            refine drift_between (hseq.trans hend.symm) (UInt32.le_iff_toNat_le.mpr ?_) (UInt32.le_iff_toNat_le.mpr ?_)
            · omega
            · omega
          rw [ih (fun trh hm => hq trh (List.mem_cons_of_mem _ hm)) hmoved]
          cases writeReass queue t (n + rlen) <;> rfl
    · rfl

lemma trimTail_shift (hs : drift k (seg.seq + seg.dlen) = d) (hq : ∀ trh ∈ queue, Whole k d trh) :
    trimTail (shiftSegment k j seg) (queue.map (shiftHead k)) = (trimTail seg queue).map (shiftTrimmed k j) := by
  induction queue with
  | nil => rfl
  | cons trh queue ih =>
    obtain ⟨-, hseq, hend⟩ := hq trh List.mem_cons_self
    have hlt : (shiftSegment k j seg).seq + (shiftSegment k j seg).dlen < (shiftHead k trh).seq + (shiftHead k trh).len ↔
        seg.seq + seg.dlen < trh.seq + trh.len := by
      rw [← lt_shift (hs.trans hend.symm), ← shift_right_comm seg.seq, ← shift_right_comm trh.seq]
      rfl
    have hgt : (shiftSegment k j seg).seq + (shiftSegment k j seg).dlen > (shiftHead k trh).seq ↔
        seg.seq + seg.dlen > trh.seq := by
      rw [gt_iff_lt, gt_iff_lt, ← lt_shift (hseq.trans hs.symm), ← shift_right_comm seg.seq]
      rfl
    have hdlen : (shiftHead k trh).seq - (shiftSegment k j seg).seq = trh.seq - seg.seq := sub_shift _ _ _
    simp only [List.map_cons, trimTail, hlt, hgt, hdlen]
    split_ifs
    · rfl
    · rfl
    · rfl
    · rfl
    · rw [ih fun trh hm => hq trh (List.mem_cons_of_mem _ hm)]
      cases trimTail seg queue <;> rfl

lemma Level.whole {floor : UInt32} (h : Level k tsk.rcvNxt queue floor seg) {trh : TcpReassHead} (hm : trh ∈ queue) :
    Whole k (drift k tsk.rcvNxt) trh :=
  ⟨h.waiting.fits trh hm, h.ends trh hm⟩

lemma insertSegment_shift {before : List TcpReassHead} {u : Trimmed}
    (hq : ∀ trh ∈ before ++ ⟨pkb, u.seg.text, u.seg.seq, u.seg.dlen⟩ :: u.rest, Whole k (drift k tsk.rcvNxt) trh)
    (hhalf : (u.seg.seq + k) >>> 16 = u.seg.seq >>> 16) :
    insertSegment (shiftSock k j tsk) (before.map (shiftHead k)) (shiftTrimmed k j u) pkb =
      (insertSegment tsk before u pkb).map (shiftReceived k j) := by
  have hover : overlay (shiftSegment k j u.seg) = shiftSegment k j (overlay u.seg) := by
    simp [overlay, shiftSegment, hhalf]
  have hlist : before.map (shiftHead k) ++
      ⟨pkb, (shiftTrimmed k j u).seg.text, (shiftTrimmed k j u).seg.seq, (shiftTrimmed k j u).seg.dlen⟩ ::
        (shiftTrimmed k j u).rest =
      (before ++ ⟨pkb, u.seg.text, u.seg.seq, u.seg.dlen⟩ :: u.rest).map (shiftHead k) := by
    rw [List.map_append, List.map_cons]
    rfl
  rw [insertSegment, insertSegment, hlist, writeReass_shift hq rfl]
  cases writeReass (before ++ ⟨pkb, u.seg.text, u.seg.seq, u.seg.dlen⟩ :: u.rest) tsk 0 with
  | error e => rfl
  | ok r =>
    simp only [Except.map, ok_bind]
    exact congrArg (fun seg => Except.ok (Received.mk _ seg _ _)) hover

lemma takeWhile_shift {x : UInt32} (hq : ∀ trh ∈ queue, drift k trh.seq = drift k x) :
    (queue.map (shiftHead k)).takeWhile (fun trh => decide (trh.seq ≤ x + k)) =
        (queue.takeWhile fun trh => decide (trh.seq ≤ x)).map (shiftHead k) ∧
      (queue.map (shiftHead k)).dropWhile (fun trh => decide (trh.seq ≤ x + k)) =
        (queue.dropWhile fun trh => decide (trh.seq ≤ x)).map (shiftHead k) := by
  induction queue with
  | nil => exact ⟨rfl, rfl⟩
  | cons trh queue ih =>
    obtain ⟨iht, ihd⟩ := ih fun trh hm => hq trh (List.mem_cons_of_mem _ hm)
    have hle : (shiftHead k trh).seq ≤ x + k ↔ trh.seq ≤ x := le_shift (hq trh List.mem_cons_self)
    simp only [List.map_cons, List.takeWhile_cons, List.dropWhile_cons, hle]
    split_ifs
    · exact ⟨by rw [iht, List.map_cons], ihd⟩
    · exact ⟨rfl, rfl⟩

lemma end_cut {n : ℕ} (hseq : seg'.seq.toNat = seg.seq.toNat + n) (hdlen : seg'.dlen.toNat + n = seg.dlen.toNat) :
    seg'.seq + seg'.dlen = seg.seq + seg.dlen := by
  apply UInt32.toNat_inj.mp
  rw [UInt32.toNat_add, UInt32.toNat_add]
  omega

section Reass

variable {before after : List TcpReassHead} {floor : UInt32}

lemma Placed.start (hp : Placed tsk seg before after seg') (hfloor : tsk.sndWnd + tsk.sndUp ≤ seg.seq) :
    seg'.seq = seg.seq ∨ ∃ prev ∈ before, seg'.seq = prev.seq + prev.len := by
  have hh := hp.head
  split_ifs at hh
  · cases hh
    exact .inl rfl
  · obtain ⟨d, hd, -, -, -, hcut, -⟩ := adjacentSegmentHead_spec hh
    rcases hcut with rfl | ⟨he, -⟩
    · exact .inl (UInt32.toNat_inj.mp hd)
    · cases hl : before.getLast? with
      | none =>
        simp only [prevEnd, hl] at he
        refine .inl (UInt32.toNat_inj.mp ?_)
        have := UInt32.le_iff_toNat_le.mp hfloor
        rw [← he] at this
        omega
      | some prev =>
        simp only [prevEnd, hl] at he
        exact .inr ⟨prev, List.mem_of_getLast? hl, he⟩

lemma Placed.le_after (hp : Placed tsk seg before after seg') (hfloor : tsk.sndWnd + tsk.sndUp ≤ seg.seq)
    (ho : Ordered first size tsk.rcvReass) (hfit : ∀ trh ∈ tsk.rcvReass, first trh + size trh < 2 ^ 32) :
    ∀ trh ∈ after, seg'.seq.toNat ≤ first trh := by
  rw [hp.split] at ho hfit
  obtain ⟨-, hoa, hba⟩ := List.pairwise_append.mp ho
  intro trh hm
  rcases Placed.start hp hfloor with he | ⟨prev, hprev, he⟩
  · rw [he]
    exact after_ge hoa (fun trh hh => (UInt32.lt_iff_toNat_lt.mp (hp.lt_after trh hh)).le) trh hm
  · rw [he, UInt32.toNat_add]
    exact (Nat.mod_eq_of_lt (hfit prev (List.mem_append_left _ hprev))).trans_le (hba prev hprev trh hm)

section Level

variable (h : Level k tsk.rcvNxt tsk.rcvReass (tsk.sndWnd + tsk.sndUp) seg) (hs : drift k seg.seq = drift k tsk.rcvNxt)
  (hge : tsk.rcvNxt ≤ seg.seq)

include h hs hge

lemma Level.reassHead (hb : ∀ trh ∈ before, trh ∈ tsk.rcvReass) :
    adjacentSegmentHead (prevEnd (shiftSock k j tsk) (before.map (shiftHead k))) (shiftSegment k j seg) =
      (adjacentSegmentHead (prevEnd tsk before) seg).map (shiftSegment k j) := by
  cases hl : before.getLast? with
  | none =>
    have hle : ¬tsk.sndWnd + tsk.sndUp > seg.seq := UInt32.not_lt.mpr (UInt32.le_trans h.head.1 hge)
    have hle' : ¬tsk.sndWnd + tsk.sndUp > seg.seq + k :=
      UInt32.not_lt.mpr (UInt32.le_trans h.head.2 ((le_shift hs.symm).mpr hge))
    simp only [prevEnd, List.getLast?_map, hl, Option.map_none, adjacentSegmentHead, shiftSock, shiftSegment, hle, hle',
      if_false, Option.map_some]
  | some prev =>
    have hend : prevEnd (shiftSock k j tsk) (before.map (shiftHead k)) = prevEnd tsk before + k := by
      simp only [prevEnd, List.getLast?_map, hl, Option.map_some]
      exact shift_right_comm _ _ _
    rw [hend]
    apply adjacentSegmentHead_shift
    simp only [prevEnd, hl]
    exact (h.ends prev (hb prev (List.mem_of_getLast? hl))).2.trans hs.symm

lemma Level.entry (hp : Placed tsk seg before after seg')
    {u : Trimmed} (hu : trimTail seg' after = .ok u) (pkb : Pkbuf) :
    Whole k (drift k tsk.rcvNxt) ⟨pkb, u.seg.text, u.seg.seq, u.seg.dlen⟩ ∧ (u.seg.seq + k) >>> 16 = u.seg.seq >>> 16 := by
  have hfloor := UInt32.le_trans h.head.1 hge
  have hstart : drift k seg'.seq = drift k tsk.rcvNxt ∧ (seg'.seq + k) >>> 16 = seg'.seq >>> 16 := by
    rcases Placed.start hp hfloor with he | ⟨prev, hprev, he⟩
    · rw [he]
      exact ⟨hs, h.half _ (by simp)⟩
    · have hm : prev ∈ tsk.rcvReass := hp.split ▸ List.mem_append_left _ hprev
      rw [he]
      exact ⟨(h.ends prev hm).2, h.half _ (by simp only [List.mem_cons, List.mem_map]; exact .inr (.inr ⟨prev, hm, rfl⟩))⟩
  obtain ⟨d, hseq, hdlen, -⟩ := hp.trimmed
  have hfits := h.fits
  obtain ⟨u', gone, hu', hafter, -, -, hseg, hcut⟩ := trimTail_spec seg' after
  cases hu.symm.trans hu'
  have huseq : u.seg.seq = seg'.seq := by rw [hseg]
  simp only [Whole, first, size, huseq]
  refine ⟨?_, hstart.2⟩
  rcases hcut with ⟨he, -⟩ | ⟨trh, hm, -, -, hd, -⟩
  · rw [he, end_cut hseq hdlen]
    exact ⟨by omega, hstart.1, h.last⟩
  · -- cut at the entry behind it, where it ends then
    have hm' : trh ∈ after := hafter ▸ List.mem_append_right _ (List.mem_of_mem_head? hm)
    have hle : seg'.seq.toNat ≤ trh.seq.toNat := Placed.le_after hp hfloor h.waiting.ordered h.waiting.fits trh hm'
    have hsum : seg'.seq + (trh.seq - seg'.seq) = trh.seq := by grind
    have htrh := (h.ends trh (hp.split ▸ List.mem_append_right _ hm')).1
    rw [hd, UInt32.toNat_sub_of_le _ _ (UInt32.le_iff_toNat_le.mpr hle), hsum]
    exact ⟨by have := trh.seq.toNat_lt; omega, hstart.1, htrh⟩

lemma Level.tcpSegmentReass (pkb : Pkbuf) : tcpSegmentReass (shiftSock k j tsk) (shiftSegment k j seg) pkb =
      (tcpSegmentReass tsk seg pkb).map (shiftReceived k j) := by
  obtain ⟨hbefore, hafter⟩ := takeWhile_shift (x := seg.seq) fun trh (hm : trh ∈ tsk.rcvReass) =>
    (h.ends trh hm).1.trans hs.symm
  have hplaced : ∀ seg', _ → Placed tsk seg _ _ seg' := fun seg' => placed
  rw [Text.tcpSegmentReass, Text.tcpSegmentReass]
  simp only [show (shiftSegment k j seg).seq = seg.seq + k from rfl,
    show (shiftSock k j tsk).rcvReass = tsk.rcvReass.map (shiftHead k) from rfl, hbefore, hafter]
  have hmem : ∀ trh ∈ tsk.rcvReass.takeWhile (fun trh => decide (trh.seq ≤ seg.seq)), trh ∈ tsk.rcvReass :=
    fun trh hm => (List.takeWhile_sublist _).mem hm
  have hmem' : ∀ trh ∈ tsk.rcvReass.dropWhile (fun trh => decide (trh.seq ≤ seg.seq)), trh ∈ tsk.rcvReass :=
    fun trh hm => (List.dropWhile_sublist _).mem hm
  generalize tsk.rcvReass.takeWhile (fun trh => decide (trh.seq ≤ seg.seq)) = before at *
  generalize tsk.rcvReass.dropWhile (fun trh => decide (trh.seq ≤ seg.seq)) = after at *
  have hhead : (if (after.map (shiftHead k)).isEmpty then some (shiftSegment k j seg)
      else adjacentSegmentHead (prevEnd (shiftSock k j tsk) (before.map (shiftHead k))) (shiftSegment k j seg)) =
      (if after.isEmpty then some seg else adjacentSegmentHead (prevEnd tsk before) seg).map (shiftSegment k j) := by
    rw [List.isEmpty_map, h.reassHead hs hge hmem]
    split_ifs <;> rfl
  rw [hhead]
  cases hseg : if after.isEmpty then some seg else adjacentSegmentHead (prevEnd tsk before) seg with
  | none => rfl
  | some seg' =>
    have hp := hplaced seg' hseg
    obtain ⟨d, hseq, hdlen, -⟩ := hp.trimmed
    have hlast : drift k (seg'.seq + seg'.dlen) = drift k tsk.rcvNxt := by
      rw [end_cut hseq hdlen, h.last]
    simp only [Option.map_some]
    rw [trimTail_shift hlast fun trh hm => h.whole (hmem' trh hm)]
    obtain ⟨u, gone, hu, hgone, -⟩ := trimTail_spec seg' after
    obtain ⟨hentry, hhalf⟩ := h.entry hs hge hp hu pkb
    rw [hu]
    simp only [Except.map, ok_bind]
    change (if u.out = true then _ else _) = _
    have hrest : before.map (shiftHead k) ++ (shiftTrimmed k j u).rest = (before ++ u.rest).map (shiftHead k) :=
      List.map_append.symm
    split_ifs
    · rw [hrest]
      rfl
    · refine insertSegment_shift (fun trh hm => ?_) hhalf
      rcases List.mem_append.mp hm with hm | hm
      · exact h.whole (hmem trh hm)
      · rcases List.mem_cons.mp hm with rfl | hm
        · exact hentry
        · exact h.whole (hmem' trh (hgone ▸ List.mem_append_right _ hm))

end Level

end Reass

lemma Level.cut {rcvNxt floor : UInt32} (h : Level k rcvNxt queue floor seg)
    (hseg : adjacentSegmentHead rcvNxt seg = some seg') : Level k rcvNxt queue floor seg' := by
  obtain ⟨d, hseq, hdlen, -, -, hcut, -⟩ := adjacentSegmentHead_spec hseg
  have hfits := h.fits
  refine ⟨h.waiting, h.ends, by omega, by rw [end_cut hseq hdlen, h.last], h.head, ?_⟩
  rcases hcut with rfl | ⟨he, -⟩
  · rw [UInt32.toNat_inj.mp hseq]
    exact h.half
  · intro x hx
    rw [he] at hx
    exact h.half x (by simp only [List.mem_cons] at hx ⊢; tauto)

lemma Unwrapped.tcpRecvText (h : Unwrapped k j tsk seg) (hr : receives tsk.state = true) (ht : hasText seg = true) (pkb : Pkbuf) :
    tcpRecvText (shiftSock k j tsk) (shiftSegment k j seg) pkb = (tcpRecvText tsk seg pkb).map (shiftReceived k j) := by
  obtain ⟨-, hseq, -⟩ := by simpa using h.window
  have hadj := adjacentSegmentHead_shift (j := j) hseq.symm
  rw [Text.tcpRecvText, Text.tcpRecvText, show (shiftSock k j tsk).rcvWnd = tsk.rcvWnd from rfl,
    show (shiftSock k j tsk).rcvNxt = tsk.rcvNxt + k from rfl, hadj]
  split_ifs with hwnd
  · rfl
  cases hseg : adjacentSegmentHead tsk.rcvNxt seg with
  | none => rfl
  | some seg' =>
    have hcond : (decide (tsk.rcvNxt + k = (shiftSegment k j seg').seq) && (shiftSock k j tsk).rcvReass.isEmpty) =
        (decide (tsk.rcvNxt = seg'.seq) && tsk.rcvReass.isEmpty) :=
      congrArg₂ and (decide_eq_decide.mpr eq_shift) List.isEmpty_map
    have hstart : seg'.seq = seg.seq ∧ tsk.rcvNxt ≤ seg.seq ∨ seg'.seq = tsk.rcvNxt := by
      simp only [adjacentSegmentHead] at hseg
      split_ifs at hseg with hgt
      · cases hseg
        exact .inr rfl
      · cases hseg
        exact .inl ⟨rfl, UInt32.not_lt.mp hgt⟩
    simp only [Option.map_some, hcond]
    split_ifs with hnext
    · rw [show (shiftSegment k j seg').text = seg'.text from rfl, show (shiftSegment k j seg').dlen = seg'.dlen from rfl,
        tcpWriteBuf_shift]
      cases tcpWriteBuf tsk seg'.text seg'.dlen <;> rfl
    · have hlevel : Level k tsk.rcvNxt tsk.rcvReass (tsk.sndWnd + tsk.sndUp) seg := by
        rcases h.text hr ht with ⟨hnil, hle⟩ | hlevel
        · rcases hstart with ⟨he, hge⟩ | he
          · exact absurd (by simp [hnil, he, UInt32.le_antisymm hge hle]) hnext
          · exact absurd (by simp [hnil, he]) hnext
        · exact hlevel _ (by simp)
      have hmoved : drift k seg'.seq = drift k tsk.rcvNxt := by
        rcases hstart with ⟨he, -⟩ | he
        · rw [he, hseq]
        · rw [he]
      have hge : tsk.rcvNxt ≤ seg'.seq := by
        rcases hstart with ⟨he, hge⟩ | he
        · rwa [he]
        · rw [he]
          exact UInt32.le_refl _
      rw [(hlevel.cut hseg).tcpSegmentReass hmoved hge]
      cases tcpSegmentReass tsk seg' pkb <;> rfl

end Text

section Arrive

lemma follows_modifySk_bind {f f' : TcpSock → TcpSock} {x y : Unit → Prog Local α} (ht : s.sock id = some t)
    (hf : f' (shiftSock k j t) = shiftSock k j (f t)) (hx : Follows k j id (x ()) (y ()) (s.put id (f t))) :
    Follows k j id (modifySk net.env id f >>= x) (modifySk net.env id f' >>= y) s := by
  have hset : Follows k j id (modifySk net.env id f) (modifySk net.env id f') s :=
    follows_modifySk fun t' ht' => by
      cases Option.mem_unique ht ht'
      exact hf
  refine Commutes.bind hset fun _ s' hrun => ?_
  obtain ⟨t', ht', rfl⟩ := modifySk_inv hrun
  cases Option.mem_unique ht ht'
  exact hx

def Ready (k j : UInt32) (seg : TcpSegment) (t : TcpSock) : Prop := t.state ≠ .synRecv ∧ Unwrapped k j t seg

def Stays (k j : UInt32) (seg : TcpSegment) (t t' : TcpSock) : Prop := Ready k j seg t → Ready k j seg t'

instance : IsPreorder TcpSock (Stays k j seg) where
  refl _ h := h
  trans _ _ _ h h' := fun hr => h' (h hr)

lemma blind_stays : Blind (Stays k j seg) where
  refcnt _ _ h := ⟨h.1, h.2.window, h.2.acks, h.2.text⟩
  hashed _ _ h := ⟨h.1, h.2.window, h.2.acks, h.2.text⟩
  bhashed _ h := ⟨h.1, h.2.window, h.2.acks, h.2.text⟩
  dst _ _ h := ⟨h.1, h.2.window, h.2.acks, h.2.text⟩
  parent _ _ h := ⟨h.1, h.2.window, h.2.acks, h.2.text⟩
  queues _ _ _ h := ⟨h.1, h.2.window, h.2.acks, h.2.text⟩
  backlog _ _ h := ⟨h.1, h.2.window, h.2.acks, h.2.text⟩

lemma stays_checkSyn (hrun : checkSyn net.env id seg s = .ok ((), s')) (ht : s'.sock id = some t)
    (h : ∀ t, s.sock id = some t → Ready k j seg t) : Ready k j seg t := by
  have hclosed : seg.syn = true → ∀ t : TcpSock, Stays k j seg t { t with state := .closed } :=
    fun _ t h => ⟨nofun, h.2.window, h.2.acks, nofun⟩
  obtain ⟨t0, ht0, hstays⟩ := (keeps_checkSyn blind_stays hclosed id _ _ _ hrun).1 t ht
  exact hstays (h t0 ht0)

section Ack

variable (hr : seg.rst = false) (ha : seg.ackBit = true)

include hr ha

lemma Unwrapped.acknowledged {st : TcpState} (h : Unwrapped k j t seg) (hst : receives st = true → receives t.state = true) :
    Unwrapped k j { t with sndUna := seg.ack, state := st } seg := by
  obtain ⟨hwl, hown⟩ := h.acks hr ha
  obtain ⟨hnxt, hwl2, hack⟩ := by simpa using hown
  refine ⟨h.window, fun _ _ => ⟨hwl, ?_⟩, fun hr' => h.text (hst hr')⟩
  simp [hnxt, hwl2, hack]

lemma Unwrapped.windowed (h : Unwrapped k j t seg) : Unwrapped k j (Tcp.tcpUpdateWindow t seg) seg := by
  rw [Tcp.tcpUpdateWindow]
  split_ifs
  · obtain ⟨hwl, hown⟩ := h.acks hr ha
    obtain ⟨hnxt, hwl2, hack⟩ := by simpa using hown
    refine ⟨h.window, fun _ _ => ⟨rfl, ?_⟩, fun hr' ht' => (h.text hr' ht').imp (fun hs => hs) fun hl wnd hm => ?_⟩
    · simp [updateWindow, hnxt, hack]
    · exact hl wnd (by simp only [updateWindow, List.mem_cons] at hm ⊢; tauto)
  · exact h

lemma follows_window (ht : s.sock id = some t) (h : Unwrapped k j t seg) : Follows k j id (do
      modifySk net.env id (fun t => tcpUpdateWindow t seg)
      return true) (do
      modifySk net.env id (fun t => tcpUpdateWindow t (shiftSegment k j seg))
      return true) s :=
  follows_modifySk_bind ht (h.tcpUpdateWindow hr ha) (commutes_pure _ _)

lemma follows_checkAck (h : ∀ t, s.sock id = some t → Ready k j seg t) :
    Follows k j id (checkAck net.env id seg) (checkAck net.env id (shiftSegment k j seg)) s := by
  refine follows_getSk fun t ht => ?_
  obtain ⟨hne, hu⟩ := h t ht
  have hold : Follows k j id (if seg.ack > t.sndNxt then pure false else do
      modifySk net.env id (fun t => tcpUpdateWindow t seg)
      return true) (if (shiftSegment k j seg).ack > (shiftSock k j t).sndNxt then pure false else do
      modifySk net.env id (fun t => tcpUpdateWindow t (shiftSegment k j seg))
      return true) s := by
    simp only [hu.future hr ha]
    exact .ite (fun _ => commutes_pure _ _) fun _ => follows_window hr ha ht hu
  have hstate : (shiftSock k j t).state = t.state := rfl
  cases hs : t.state <;> simp only [hstate, hs, hu.acksNew hr ha, reduceCtorEq, if_true, if_false]
  case synRecv => exact absurd hs hne
  case established | closeWait =>
    refine .ite (fun _ => follows_modifySk_bind ht rfl ?_) fun _ => hold
    exact follows_window hr ha sock_put (hu.acknowledged hr ha fun h => h)
  case finWait1 =>
    refine .ite (fun _ => follows_modifySk_bind ht rfl ?_) fun _ => hold
    refine follows_modifySk_bind sock_put rfl (follows_window hr ha sock_put ?_)
    exact hu.acknowledged hr ha fun _ => by rw [hs]; rfl
  case closing =>
    refine .ite (fun _ => follows_modifySk_bind ht rfl ?_) fun _ => hold
    exact Follows.bind (follows_tcpSetTimewaitTimer) fun _ _ => commutes_pure _ _
  case lastAck =>
    refine .ite (fun _ => follows_modifySk_bind ht rfl ?_) fun _ => hold
    refine Follows.bind (follows_modifySk fun _ _ => rfl) fun _ _ => Follows.bind (follows_tcpUnhash) fun _ _ => ?_
    exact Follows.bind (follows_tcpUnbhash) fun _ _ => commutes_pure _ _
  all_goals exact commutes_pure _ _

lemma stays_checkAck (hrun : checkAck net.env id seg s = .ok (true, s')) (ht : s'.sock id = some t)
    (h : ∀ t, s.sock id = some t → Ready k j seg t) : Unwrapped k j t seg := by
  obtain ⟨t0, s0, rfl, ht0, -⟩ := getSk_bind_inv hrun
  obtain ⟨x, hx, hrest⟩ := checkAck_inv ht0 hrun
  obtain ⟨hne, hu⟩ := h t0 ht0
  have hwindow : ∀ s t1, s.sock id = some t1 → Unwrapped k j t1 seg → (do
      modifySk net.env id (fun t => Tcp.tcpUpdateWindow t seg)
      return true : Prog Local Bool) s = .ok (true, s') → Unwrapped k j t seg := by
    intro s t1 ht1 hu1 hrun
    rw [bind_run (modifySk_run _ ht1)] at hrun
    cases hrun
    obtain rfl := Option.mem_unique sock_put ht
    exact hu1.windowed hr ha
  cases hx with
  | completes hs | outside hs => exact absurd hs hne
  | forward =>
    rw [bind_run (modifySk_run _ ht0)] at hrest
    exact hwindow _ _ sock_put (hu.acknowledged hr ha fun h => h) hrest
  | finWait1 hs =>
    rw [bind_run (modifySk_run _ ht0), bind_run (modifySk_run _ sock_put)] at hrest
    exact hwindow _ _ sock_put (hu.acknowledged hr ha fun _ => by rw [hs]; rfl) hrest
  | closing => exact absurd hrest (bind_ne fun _ _ => bind_ne nofun)
  | lastAck => exact absurd hrest (bind_ne fun _ _ => bind_ne fun _ _ => bind_ne fun _ _ => bind_ne nofun)
  | beyond => cases hrest
  | old => exact hwindow _ _ ht0 hu hrest
  | other =>
    cases hrest
    exact Option.mem_unique ht0 ht ▸ hu

end Ack

lemma commutes_checkText (h : ∀ t, s.sock id = some t → Unwrapped k j t seg) (pkb : Pkbuf) :
    Commutes (shiftLocal k j id) (shiftSegment k j) (checkText net.env id seg pkb)
      (checkText net.env id (shiftSegment k j seg) pkb) s := by
  cases ht : s.sock id with
  | none => exact (commutes_getSk).bind fun t s' hget => absurd ((getSk_inv hget).1.symm.trans ht) nofun
  | some t =>
    have ht' : (shiftLocal k j id s).sock id = some (shiftSock k j t) := by rw [sock_shiftLocal, ht]; rfl
    have htexted : texted (shiftSock k j t) (shiftSegment k j seg) pkb =
        (texted t seg pkb).map fun p => (shiftSock k j p.1, shiftSegment k j p.2) := by
      simp only [texted, show (shiftSock k j t).state = t.state from rfl,
        show hasText (shiftSegment k j seg) = hasText seg from rfl]
      split_ifs with hcond
      · rw [Bool.and_eq_true] at hcond
        rw [(h t ht).tcpRecvText hcond.1 hcond.2]
        cases tcpRecvText t seg pkb <;> rfl
      · rfl
    rw [Commutes, checkText_run _ _ ht, checkText_run _ _ ht', htexted]
    cases texted t seg pkb with
    | error e => rfl
    | ok p => exact congrArg (fun s => Except.ok (_, s)) (shiftLocal_put p.1).symm

lemma follows_tcpArrive (hs : s.sock id = some tsk) (h : Ready k j seg tsk) (pkb : Pkbuf) :
    Follows k j id (tcpArrive net.env pkb seg id) (tcpArrive net.env pkb (shiftSegment k j seg) id) s := by
  refine follows_getSk fun t ht => ?_
  cases Option.mem_unique hs ht
  rw [h.2.seqCheck]
  refine .ite (fun _ => ?_) fun _ => .ite (fun _ => ?_) fun hrst => ?_
  · exact .ite (fun _ => Follows.bind (follows_modifySk fun _ _ => rfl) fun _ _ => follows_drop seg pkb)
      fun _ => follows_drop seg pkb
  · exact Follows.bind (follows_checkRst) fun _ _ => follows_drop seg pkb
  · have hstart : ∀ t, s.sock id = some t → Ready k j seg t := fun t ht => Option.mem_unique hs ht ▸ h
    refine Commutes.bind (follows_checkSyn seg) fun _ s1 hsyn => .ite (fun _ => follows_drop seg pkb) fun hack => ?_
    have hready : ∀ t, s1.sock id = some t → Ready k j seg t := fun t ht => stays_checkSyn hsyn ht hstart
    have hr : seg.rst = false := by simpa using hrst
    have ha : seg.ackBit = true := by simpa using hack
    refine Commutes.bind (follows_checkAck hr ha hready) fun b s2 hcheck =>
      .ite (fun _ => follows_drop seg pkb) fun hb => ?_
    obtain rfl : b = true := by simpa using hb
    refine (commutes_checkText (fun t ht => stays_checkAck hr ha hcheck ht hready) pkb).bind fun seg' s3 _ => ?_
    exact Follows.bind (follows_checkFin seg') fun _ _ => follows_drop seg' pkb

end Arrive

section Examples

def peerAt (rcvNxt sndUna sndNxt : UInt32) : TcpSock :=
  { tcpAllocSock with state := .established, rcvNxt := rcvNxt, sndUna := sndUna, sndNxt := sndNxt }

def textAfter (x : Except Fault (Unit × Local)) : Option (UInt32 × List UInt8) :=
  x.toOption.bind fun r => (r.2.sock 0).map fun t => (t.rcvNxt, held t)

def waiting : TcpSock := { peerAt 101 5 9 with rcvReass := [⟨allocPkb 0 0, [7, 8], 105, 2⟩], sndWl1 := 100, sndWl2 := 5 }

def fills : TcpSegment := { textSegment 101 [1, 2, 3, 4] with ack := 7 }

end Examples

end Tapip.Tcp.Shift
