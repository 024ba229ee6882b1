import Tapip.Tcp.Api

/-! One connection whose peer is another host: what the stack sends leaves it. -/

namespace Tapip.Tcp.Connection

open Net.Pkb Foundation.Bytes Foundation.Program Text

variable {j : ℕ} {f : TcpSock → TcpSock} {t : TcpSock} {seg seg' : TcpSegment} {pkb : Pkbuf} {out : OutTcp}

structure Sent where
  saddr : UInt32
  daddr : UInt32
  out : OutTcp
deriving DecidableEq, Repr

structure Local where
  tcp : TcpWorld
  sent : List Sent

structure Net where
  route : UInt32 → Option RtEntry
  mtu : RtEntry → ℤ

def offline : Net := ⟨fun _ => none, fun _ => 1500⟩

def Net.env (net : Net) : TcpEnv Local where
  world := Local.tcp
  setWorld w s := { s with tcp := w }
  allocPkb size := pure (allocPkb 0 size.toNat)
  freePkb _ := pure ()
  getPkb _ := pure ()
  rtLookup daddr := pure (net.route daddr)
  netMtu rt := pure (net.mtu rt)
  ipSendOut _ _ saddr daddr out := fun s => .ok ((), { s with sent := s.sent ++ [⟨saddr, daddr, out⟩] })

def unhashed (tsk : TcpSock) : TcpSock :=
  if tsk.sk.hashed then setRefcnt (tsk.sk.refcnt - 1) (setHashed false tsk) else tsk

def unbhashed (tsk : TcpSock) : TcpSock :=
  if tsk.bhashed then setRefcnt (tsk.sk.refcnt - 1) { tsk with bhashed := false } else tsk

def Local.sock (s : Local) (id : ℕ) : Option TcpSock := s.tcp.socks id

def Local.put (s : Local) (id : ℕ) (tsk : TcpSock) : Local :=
  { s with tcp := { s.tcp with socks := Function.update s.tcp.socks id (some tsk) } }

@[simp] lemma sock_put {s : Local} {id : ℕ} {tsk : TcpSock} : (s.put id tsk).sock id = some tsk := by
  simp [Local.sock, Local.put]

lemma sock_put_of_ne {s : Local} {i : ℕ} (h : j ≠ i) (t : TcpSock) : (s.put i t).sock j = s.sock j :=
  Function.update_of_ne h _ _

@[simp] lemma sent_put (s : Local) (id : ℕ) (tsk : TcpSock) : (s.put id tsk).sent = s.sent := rfl

@[simp] lemma put_put (s : Local) (id : ℕ) (tsk tsk' : TcpSock) : (s.put id tsk).put id tsk' = s.put id tsk' := by
  simp [Local.put]

lemma put_self {s : Local} {id : ℕ} {tsk : TcpSock} (h : s.sock id = some tsk) : s.put id tsk = s := by
  have he : Function.update s.tcp.socks id (some tsk) = s.tcp.socks :=
    Function.update_eq_self_iff.mpr h.symm
  simp only [Local.put, he]

section Run

variable {net : Net} {s : Local} {id : ℕ} {tsk : TcpSock}

lemma getSk_run (h : s.sock id = some tsk) : getSk net.env id s = .ok (tsk, s) := by
  simp only [Local.sock] at h
  simp [getSk, Net.env, h]

lemma getSk_inv (h : getSk net.env id s = .ok (tsk, s')) : s.sock id = some tsk ∧ s' = s := by
  simp only [getSk] at h
  split at h
  · simp at h
  · rename_i t ht
    cases h
    exact ⟨ht, rfl⟩

lemma getSk_bind_inv {f : TcpSock → Prog Local α} {r : α × Local} (h : (getSk net.env id >>= f) s = .ok r) :
    ∃ t s', s' = s ∧ s.sock id = some t ∧ f t s' = .ok r := by
  obtain ⟨t, s', hget, hrest⟩ := bind_inv h
  obtain ⟨ht, hs⟩ := getSk_inv hget
  exact ⟨t, s', hs, ht, hrest⟩

lemma modifySk_run (f : TcpSock → TcpSock) (h : s.sock id = some tsk) :
    modifySk net.env id f s = .ok ((), s.put id (f tsk)) := by
  rw [modifySk, bind_run (getSk_run h)]
  rfl

lemma modifySk_inv {u : Unit} {s' : Local}
    (h : modifySk net.env id f s = .ok (u, s')) : ∃ t, s.sock id = some t ∧ s' = s.put id (f t) := by
  obtain ⟨t, -, -, ht, -⟩ := getSk_bind_inv h
  rw [modifySk_run f ht] at h
  cases h
  exact ⟨t, ht, rfl⟩

section Ends

variable {α β : Type}

def Ends (id : ℕ) (x : Prog Local α) (s : Local) (a : α) (tsk : TcpSock) : Prop :=
  ∃ s', x s = .ok (a, s') ∧ s'.sent = s.sent ∧ s'.sock id = some tsk

lemma Ends.bind {x : Prog Local α} {f : α → Prog Local β} {a : α} {b : β}
    (hx : Ends id x s a tsk) (hf : ∀ {s1 : Local}, s1.sock id = some tsk → Ends id (f a) s1 b t) :
    Ends id (x >>= f) s b t := by
  obtain ⟨s1, hx, hsent, hsock⟩ := hx
  obtain ⟨s2, hf, hsent', hsock'⟩ := hf hsock
  exact ⟨s2, by rw [bind_run hx, hf], hsent'.trans hsent, hsock'⟩

lemma ends_pure {a : α} (h : s.sock id = some tsk) : Ends id (pure a : Prog Local α) s a tsk :=
  ⟨s, rfl, rfl, h⟩

lemma ends_getSk (h : s.sock id = some tsk) : Ends id (getSk net.env id) s tsk tsk :=
  ⟨s, getSk_run h, rfl, h⟩

lemma ends_modifySk (h : s.sock id = some tsk) : Ends id (modifySk net.env id f) s () (f tsk) :=
  ⟨_, modifySk_run f h, rfl, sock_put⟩

lemma ends_modifyWorld {f : TcpWorld → TcpWorld} (hf : ∀ w, (f w).socks = w.socks)
    (h : s.sock id = some tsk) : Ends id (modifyWorld net.env f) s () tsk := by
  refine ⟨_, rfl, rfl, ?_⟩
  simp only [Local.sock, Net.env, hf]
  exact h

end Ends

def setDst (dst : Option RtEntry) (tsk : TcpSock) : TcpSock :=
  { tsk with sk := { tsk.sk with skDst := dst } }

variable (net) in
def dstOf (tsk : TcpSock) (daddr : UInt32) : Option RtEntry :=
  match tsk.sk.skDst with
  | some rt => some rt
  | none => net.route daddr

lemma tcpRoute_run (daddr : UInt32) (h : s.sock id = some tsk) : tcpRoute net.env (some id) daddr s =
      .ok (dstOf net tsk daddr, s.put id (setDst (dstOf net tsk daddr) tsk)) := by
  simp only [tcpRoute]
  rw [bind_run (getSk_run h), bind_run (pure_run _)]
  cases hd : tsk.sk.skDst with
  | some rt =>
    have hself : setDst (some rt) tsk = tsk := by rw [← hd]; rfl
    simp [dstOf, hd, hself, put_self h]
  | none =>
    cases hr : net.route daddr with
    | none =>
      have hself : setDst none tsk = tsk := by rw [← hd]; rfl
      simp only [dstOf, hd, hr, hself, put_self h]
      rw [bind_run (show net.env.rtLookup daddr s = .ok (none, s) by rw [← hr]; rfl)]
      rfl
    | some rt =>
      simp only [dstOf, hd, hr]
      rw [bind_run (show net.env.rtLookup daddr s = .ok (some rt, s) by rw [← hr]; rfl)]
      dsimp only
      rw [bind_run (modifySk_run _ h)]
      rfl

def emitted (s : Local) (dst : Option RtEntry) (saddr daddr : UInt32) (out : OutTcp) : Local :=
  if dst.isSome then { s with sent := s.sent ++ [⟨saddr, daddr, out⟩] } else s

@[simp] lemma sock_emitted (s : Local) (dst : Option RtEntry) (saddr daddr : UInt32) (out : OutTcp) :
    (emitted s dst saddr daddr out).sock id = s.sock id := by
  simp only [emitted]
  split_ifs <;> rfl

lemma tcpSendAck_run (h : s.sock id = some tsk) (hr : seg.rst = false) : tcpSendAck net.env id (some seg) s =
      .ok ((), emitted (s.put id (setDst (dstOf net tsk seg.iphdrSrc) tsk))
        (dstOf net tsk seg.iphdrSrc) seg.iphdrDst seg.iphdrSrc (ackOf tsk seg)) := by
  simp only [tcpSendAck, hr, Bool.false_eq_true, if_false]
  rw [bind_run (show net.env.allocPkb _ s = .ok (_, s) from rfl), bind_run (getSk_run h),
    tcpSendOut, bind_run (pure_run _)]
  dsimp only
  rw [bind_run (tcpRoute_run _ h)]
  cases dstOf net tsk seg.iphdrSrc <;> rfl

def ackDue (tsk : TcpSock) : Bool := tsk.ackNow || tsk.ackDelay

lemma drop_run (h : s.sock id = some tsk) (hr : seg.rst = false) : drop net.env id seg pkb s =
      .ok ((), if ackDue tsk then
        emitted (s.put id (setDst (dstOf net tsk seg.iphdrSrc) tsk))
          (dstOf net tsk seg.iphdrSrc) seg.iphdrDst seg.iphdrSrc (ackOf tsk seg) else s) := by
  rw [drop, bind_run (getSk_run h)]
  change (if ackDue tsk = true then _ else _ : Prog Local Unit) s = _
  split_ifs
  · rw [bind_run (tcpSendAck_run h hr)]
    rfl
  · rfl

def acknowledge (tsk : TcpSock) (seg : TcpSegment) : TcpSock :=
  { tsk with
    sndUna := seg.ack
    state := if tsk.state = .finWait1 then .finWait2 else tsk.state }

def acked (tsk : TcpSock) (seg : TcpSegment) : Option TcpSock :=
  if tsk.state = .finWait2 then some tsk
  else if acksNew tsk seg then some (tcpUpdateWindow (acknowledge tsk seg) seg)
  else if seg.ack > tsk.sndNxt then none
  else some (tcpUpdateWindow tsk seg)

lemma checkAck_inv (h : s.sock id = some tsk) (hrun : checkAck net.env id seg s = .ok r) :
    ∃ x, AckStep net.env id seg tsk x ∧ x s = .ok r := by
  obtain ⟨step, he⟩ := checkAck_eq net.env id seg
  rw [he, bind_run (getSk_run h)] at hrun
  exact ⟨_, (step tsk).2, hrun⟩

lemma checkAck_run (seg : TcpSegment) (h : s.sock id = some tsk) (hr : receives tsk.state = true) :
    checkAck net.env id seg s = match acked tsk seg with
      | none => .ok (false, s)
      | some t => .ok (true, s.put id t) := by
  rw [checkAck, bind_run (getSk_run h)]
  cases hs : tsk.state <;> simp only [hs, receives, Bool.false_eq_true] at hr
  · simp only [acked, hs, reduceCtorEq, if_false]
    split_ifs with h1 h2
    · rw [bind_run (modifySk_run _ h)]
      have hack : acknowledge tsk seg = { tsk with sndUna := seg.ack } := by
        simp [acknowledge, hs]
      rw [bind_run (modifySk_run _ sock_put), put_put, hack]
      rfl
    · rfl
    · rw [bind_run (modifySk_run _ h)]
      rfl
  · simp only [acked, hs, reduceCtorEq, if_false]
    split_ifs with h1 h2
    · rw [bind_run (modifySk_run _ h)]
      simp only
      have hack : acknowledge tsk seg = { tsk with sndUna := seg.ack, state := .finWait2 } := by
        simp [acknowledge, hs]
      rw [bind_run (modifySk_run _ sock_put), put_put,
        bind_run (modifySk_run _ sock_put), put_put, hack]
      rfl
    · rfl
    · rw [bind_run (modifySk_run _ h)]
      rfl
  · simp only [acked, hs, if_true, put_self h]
    rfl

lemma freePkbs_run (freed : List Pkbuf) (s : Local) : freed.forM net.env.freePkb s = .ok ((), s) := by
  induction freed with
  | nil => rfl
  | cons pkb freed ih =>
    change (net.env.freePkb pkb >>= fun _ => freed.forM net.env.freePkb) s = _
    rw [bind_run (show net.env.freePkb pkb s = .ok ((), s) from rfl)]
    exact ih

/-- What `tcp_free_buf` and `tcp_free_reass_head` leave of a close. -/
abbrev freeText (net : Net) (id : ℕ) : Prog Local Unit := do
  let tsk ← getSk net.env id
  modifySk net.env id (fun t => { t with rcvBuf := none, rcvReass := [] })
  (tsk.rcvReass.map TcpReassHead.pkb).forM net.env.freePkb

lemma freeText_eq : freeText net id = modifySk net.env id fun t => { t with rcvBuf := none, rcvReass := [] } := by
  funext s
  cases h : s.sock id with
  | none =>
    have hget : getSk net.env id s = .error .useAfterFree := by
      simp [getSk, Net.env, show s.tcp.socks id = none from h]
    rw [freeText, modifySk, bind_run_error hget, bind_run_error hget]
  | some t => rw [freeText, bind_run (getSk_run h), bind_run (modifySk_run _ h), freePkbs_run, modifySk_run _ h]

def hasText (seg : TcpSegment) : Bool := seg.psh || decide (seg.dlen > 0)

def texted (tsk : TcpSock) (seg : TcpSegment) (pkb : Pkbuf) : Except Fault (TcpSock × TcpSegment) :=
  if receives tsk.state && hasText seg then (tcpRecvText tsk seg pkb).map (fun r => (r.tsk, r.seg))
  else .ok (tsk, seg)

lemma texted_inv (h : texted tsk seg pkb = .ok (t, seg')) :
    (∃ r, receives tsk.state = true ∧ hasText seg = true ∧ tcpRecvText tsk seg pkb = .ok r ∧ r.tsk = t ∧ r.seg = seg') ∨
      tsk = t ∧ seg = seg' := by
  simp only [texted] at h
  split_ifs at h with htext
  · rw [Bool.and_eq_true] at htext
    cases hr : tcpRecvText tsk seg pkb with
    | error e => simp [hr, Except.map] at h
    | ok r => exact .inl ⟨r, htext.1, htext.2, rfl, by simpa [hr, Except.map] using h⟩
  · exact .inr (by simpa using h)

lemma checkText_run (seg : TcpSegment) (pkb : Pkbuf) (h : s.sock id = some tsk) :
    checkText net.env id seg pkb s = (texted tsk seg pkb).map (fun p => (p.2, s.put id p.1)) := by
  rw [checkText, bind_run (getSk_run h), texted]
  change (if (receives tsk.state && hasText seg) = true then _ else _ : Prog Local TcpSegment) s = _
  split_ifs
  · cases hr : tcpRecvText tsk seg pkb with
    | error e =>
      rw [bind_run_error (show liftExcept (.error e) s = .error e from rfl)]
      rfl
    | ok r =>
      rw [bind_run (show liftExcept (.ok r) s = .ok (r, s) from rfl), bind_run (modifySk_run _ h)]
      simp only
      split_ifs
      · rw [bind_run (show net.env.getPkb pkb (s.put id r.tsk) = .ok ((), s.put id r.tsk) from rfl),
          bind_run (freePkbs_run _ _)]
        rfl
      · rw [bind_run (freePkbs_run _ _)]
        rfl
  · simp [Except.map, put_self h]

lemma checkText_inv (h : s.sock id = some tsk) (hrun : checkText net.env id seg pkb s = .ok (seg', s')) :
    ∃ t, texted tsk seg pkb = .ok (t, seg') ∧ s.put id t = s' := by
  rw [checkText_run seg pkb h] at hrun
  cases htext : texted tsk seg pkb with
  | error e => simp [htext, Except.map] at hrun
  | ok p =>
    obtain ⟨rfl, rfl⟩ : p.2 = seg' ∧ s.put id p.1 = s' := by simpa [htext, Except.map] using hrun
    exact ⟨p.1, rfl, rfl⟩

def finState (tsk : TcpSock) : TcpSock :=
  match tsk.state with
  | .synRecv | .established => { tsk with state := .closeWait, push := true }
  | .finWait1 => { tsk with state := .closing }
  | .timeWait => { tsk with timewait := some TCP_TIMEWAIT_TIMEOUT }
  | .finWait2 => setRefcnt (tsk.sk.refcnt + 1)
      { tsk with state := .timeWait, timewait := some TCP_TIMEWAIT_TIMEOUT }
  | _ => tsk

def finished (tsk : TcpSock) (seg : TcpSegment) : TcpSock :=
  if seg.fin then { finState tsk with rcvNxt := seg.seq + 1, ackNow := true } else tsk

lemma ends_tcpSetTimewaitTimer (h : s.sock id = some tsk) :
    Ends id (tcpSetTimewaitTimer net.env id) s () (setRefcnt (tsk.sk.refcnt + 1)
      { tsk with state := .timeWait, timewait := some TCP_TIMEWAIT_TIMEOUT }) :=
  (ends_modifySk h).bind fun h1 => (ends_modifyWorld (fun _ => by rfl) h1).bind fun h2 =>
    ends_modifySk h2

lemma ends_checkFin (seg : TcpSegment) (h : s.sock id = some tsk) :
    Ends id (checkFin net.env id seg) s () (finished tsk seg) := by
  simp only [checkFin, finished]
  split_ifs
  · have hset : ∀ {s1 : Local} {t : TcpSock}, s1.sock id = some t → t = finState tsk →
        Ends id (modifySk net.env id (fun t => { t with rcvNxt := seg.seq + 1, ackNow := true }))
          s1 () { finState tsk with rcvNxt := seg.seq + 1, ackNow := true } := by
      rintro s1 t ht rfl
      exact ends_modifySk ht
    refine (ends_getSk h).bind fun h1 => ?_
    cases hs : tsk.state <;> simp only
    case finWait2 =>
      exact (ends_tcpSetTimewaitTimer h1).bind fun h2 => hset h2 (by simp [finState, hs])
    case synRecv | established | finWait1 | timeWait =>
      exact (ends_modifySk h1).bind fun h2 => hset h2 (by simp [finState, hs])
    all_goals exact hset h1 (by simp [finState, hs])
  · exact ends_pure h

def arrived (tsk : TcpSock) (seg : TcpSegment) (pkb : Pkbuf) : Except Fault (TcpSock × TcpSegment) :=
  if !seg.ackBit then .ok (tsk, seg)
  else match acked tsk seg with
    | none => .ok (tsk, seg)
    | some t => (texted t seg pkb).map (fun p => (finished p.1 p.2, p.2))

variable (net) in
def answered (s : Local) (id : ℕ) (tsk : TcpSock) (seg : TcpSegment) : Local :=
  if ackDue tsk then
    emitted (s.put id (setDst (dstOf net tsk seg.iphdrSrc) tsk))
      (dstOf net tsk seg.iphdrSrc) seg.iphdrDst seg.iphdrSrc (ackOf tsk seg)
  else s

lemma answered_sent (s : Local) (t : TcpSock) (seg : TcpSegment) : (answered net s id t seg).sent = s.sent ++
      if ackDue t && (dstOf net t seg.iphdrSrc).isSome then
        [⟨seg.iphdrDst, seg.iphdrSrc, ackOf t seg⟩] else [] := by
  cases ha : ackDue t <;> cases hd : dstOf net t seg.iphdrSrc <;> simp [answered, emitted, ha, hd]

lemma texted_cutOf (h : texted tsk seg pkb = .ok (t, seg')) : CutOf seg seg' := by
  obtain ⟨r, -, -, hr, -, rfl⟩ | ⟨-, rfl⟩ := texted_inv h
  · exact tcpRecvText_cutOf hr
  · exact .refl seg

lemma tcpProcess_of_receives (seg : TcpSegment) (pkb : Pkbuf) (h : s.sock id = some tsk)
    (hr : receives tsk.state = true) :
    tcpProcess net.env pkb seg (some id) s = tcpArrive net.env pkb seg id s := by
  rw [tcpProcess, bind_run (getSk_run h)]
  cases hs : tsk.state <;> simp_all [receives]

variable (net) in
lemma tcpProcess_run (pkb : Pkbuf) (h : s.sock id = some tsk)
    (hr : receives tsk.state = true) (hc : seqCheck seg tsk = true) (hrst : seg.rst = false)
    (hsyn : seg.syn = false) :
    (∃ e, arrived tsk seg pkb = .error e ∧ tcpProcess net.env pkb seg (some id) s = .error e) ∨
      ∃ t seg' s', arrived tsk seg pkb = .ok (t, seg') ∧ s'.sock id = some t ∧ s'.sent = s.sent ∧
        tcpProcess net.env pkb seg (some id) s = .ok ((), answered net s' id t seg') := by
  have hdrop : ∀ {s1 : Local} {t : TcpSock} {seg1 : TcpSegment}, s1.sock id = some t →
      seg1.rst = false → drop net.env id seg1 pkb s1 = .ok ((), answered net s1 id t seg1) :=
    fun h1 h2 => drop_run h1 h2
  rw [tcpProcess_of_receives seg pkb h hr, tcpArrive, bind_run (getSk_run h)]
  simp only [hc, hrst, Bool.not_true, Bool.false_eq_true, if_false, arrived]
  rw [bind_run (show checkSyn net.env id seg s = .ok ((), s) by simp [checkSyn, hsyn])]
  split_ifs
  · exact .inr ⟨tsk, seg, s, rfl, h, rfl, hdrop h hrst⟩
  rw [bind_run_eq (checkAck_run seg h hr)]
  cases hk : acked tsk seg with
  | none => exact .inr ⟨tsk, seg, s, rfl, h, rfl, hdrop h hrst⟩
  | some t =>
    simp only [ok_bind, Bool.not_true, Bool.false_eq_true, if_false]
    have htext := @checkText_run net (s.put id t) id t seg pkb sock_put
    cases ht : texted t seg pkb with
    | error e =>
      refine .inl ⟨e, rfl, ?_⟩
      rw [ht] at htext
      exact bind_run_error htext
    | ok p =>
      obtain ⟨t', seg'⟩ := p
      obtain ⟨s', hfin, hsent, hsock⟩ := ends_checkFin seg' sock_put
      refine .inr ⟨finished t' seg', seg', s', rfl, hsock, hsent, ?_⟩
      simp only [ht, put_put, Except.map] at htext
      rw [bind_run htext, bind_run hfin]
      exact hdrop hsock ((texted_cutOf ht).rst.trans hrst)

end Run

section Frame

def Same {β : Type} (view : TcpSock → β) (t t' : TcpSock) : Prop := view t' = view t

instance {β : Type} (view : TcpSock → β) : IsPreorder TcpSock (Same view) where
  refl _ := rfl
  trans _ _ _ h h' := h'.trans h

variable (id : ℕ) (R : TcpSock → TcpSock → Prop) (P : Sent → Prop)

/-- The sock, if it is still there, has moved along `R`, and what was sent meanwhile has `P`. -/
def Keeps (s s' : Local) : Prop :=
  (∀ t', s'.sock id = some t' → ∃ t, s.sock id = some t ∧ R t t') ∧
    ∃ new, s'.sent = s.sent ++ new ∧ ∀ e ∈ new, P e

variable {id R P}

lemma keeps_fault {α : Type} {e : Fault} : Respects (Keeps id R P) (fault e : Prog Local α) := by
  rintro s a s' h
  simp [fault] at h

lemma Keeps.imp (h : Keeps id R P s s') (hR : ∀ {t t'}, R t t' → R' t t') (hP : ∀ {e}, P e → P' e) :
    Keeps id R' P' s s' := by
  obtain ⟨h, new, hnew, hp⟩ := h
  refine ⟨fun t' ht' => ?_, new, hnew, fun e he => hP (hp e he)⟩
  obtain ⟨t, ht, hr⟩ := h t' ht'
  exact ⟨t, ht, hR hr⟩

lemma Keeps.rel (hk : Keeps id R P s s') (h : s.sock id = some t) (h' : s'.sock id = some t') : R t t' := by
  obtain ⟨t1, ht1, hr⟩ := hk.1 t' h'
  exact Option.mem_unique h ht1 ▸ hr

lemma Keeps.comp (h : Keeps id R P a b) (h' : Keeps id R' P b c) (hr : ∀ {x y z}, R x y → R' y z → R'' x z) :
    Keeps id R'' P a c := by
  obtain ⟨h1, n1, e1, p1⟩ := h
  obtain ⟨h2, n2, e2, p2⟩ := h'
  refine ⟨fun t ht => ?_, n1 ++ n2, by rw [e2, e1, List.append_assoc], ?_⟩
  · obtain ⟨t1, ht1, hv1⟩ := h2 t ht
    obtain ⟨t0, ht0, hv0⟩ := h1 t1 ht1
    exact ⟨t0, ht0, hr hv0 hv1⟩
  · intro e he
    rcases List.mem_append.mp he with he | he
    · exact p1 e he
    · exact p2 e he

lemma keeps_of_sock (h : s.sock id = some t) (hsent : s'.sent = s.sent) (h' : s'.sock id = some t') (hr : R t t') :
    Keeps id R P s s' := by
  refine ⟨fun t1 ht1 => ⟨t, h, ?_⟩, [], by simp [hsent], by simp⟩
  exact Option.mem_unique h' ht1 ▸ hr

lemma keeps_put (h : s.sock id = some t) (hr : R t t') : Keeps id R P s (s.put id t') :=
  keeps_of_sock h rfl sock_put hr

variable [IsPreorder TcpSock R]

lemma Keeps.refl (s : Local) : Keeps id R P s s :=
  ⟨fun t h => ⟨t, h, refl_of R t⟩, [], by simp, by simp⟩

lemma Keeps.trans (h : Keeps id R P a b) (h' : Keeps id R P b c) : Keeps id R P a c :=
  h.comp h' fun hr hr' => trans_of R hr hr'

variable {net : Net} {α : Type}

lemma keeps_pure (a : α) : Respects (Keeps id R P) (pure a : Prog Local α) :=
  Respects.pure Keeps.refl a

lemma Keeps.bind {γ : Type} {x : Prog Local α} {f : α → Prog Local γ}
    (hx : Respects (Keeps id R P) x) (hf : ∀ a, Respects (Keeps id R P) (f a)) :
    Respects (Keeps id R P) (x >>= f) :=
  Respects.bind (fun h h' => h.trans h') hx hf

lemma keeps_getSk (j : ℕ) : Respects (Keeps id R P) (getSk net.env j) := by
  rintro s a s' h
  obtain ⟨-, rfl⟩ := getSk_inv h
  exact Keeps.refl _

lemma keeps_getWorld : Respects (Keeps id R P) (getWorld net.env) := by
  rintro s a s' h
  cases h
  exact Keeps.refl s

lemma keeps_modifyWorld {f : TcpWorld → TcpWorld} (hf : ∀ w, (f w).socks = w.socks) :
    Respects (Keeps id R P) (modifyWorld net.env f) := by
  rintro s a s' h
  cases h
  refine ⟨fun t ht => ⟨t, ?_, refl_of R t⟩, [], by simp [Net.env], by simp⟩
  simp only [Local.sock, Net.env, hf] at ht
  exact ht

lemma keeps_modifySk (hf : ∀ t, R t (f t)) : Respects (Keeps id R P) (modifySk net.env j f) := by
  rintro s a s' h
  obtain ⟨tsk, s1, rfl, hs, h2⟩ := getSk_bind_inv h
  cases h2
  refine ⟨fun t ht => ?_, [], by simp [Net.env], by simp⟩
  by_cases hj : id = j
  · subst hj
    have he : f tsk = t := by simpa [Local.sock, Net.env] using ht
    exact ⟨tsk, hs, he ▸ hf tsk⟩
  · refine ⟨t, ?_, refl_of R t⟩
    simpa [Local.sock, Net.env, Function.update_of_ne hj] using ht

lemma keeps_freeSock (j : ℕ) (hf : ∀ n t, R t (setRefcnt n t)) : Respects (Keeps id R P) (freeSock net.env j) := by
  refine Keeps.bind (keeps_getSk j) fun tsk => ?_
  split_ifs
  · rintro s a s' h
    cases h
    refine ⟨fun t ht => ⟨t, ?_, refl_of R t⟩, [], by simp [Net.env], by simp⟩
    simp only [Local.sock, Net.env, Function.update_apply] at ht
    split_ifs at ht
    exact ht
  · exact keeps_modifySk fun t => hf _ t

section Tables

variable (hr : ∀ n t, R t (setRefcnt n t)) (hh : ∀ b t, R t (setHashed b t))

include hr hh

lemma keeps_tcpHash (j : ℕ) : Respects (Keeps id R P) (tcpHash net.env j) := by
  have hlink : ∀ t, R t (setHashed true (setRefcnt (t.sk.refcnt + 1) t)) := fun t =>
    trans_of R (hr _ t) (hh _ _)
  refine Keeps.bind (keeps_getSk j) fun t => ?_
  split_ifs
  · exact keeps_pure _
  · exact Keeps.bind (keeps_modifySk hlink) fun _ =>
      Keeps.bind (keeps_modifyWorld fun _ => rfl) fun _ => keeps_pure _
  · refine Keeps.bind (keeps_getWorld) fun w => ?_
    split_ifs
    · exact keeps_pure _
    · exact Keeps.bind (keeps_modifySk hlink) fun _ =>
        Keeps.bind (keeps_modifyWorld fun _ => rfl) fun _ => keeps_pure _

lemma keeps_tcpUnhash (j : ℕ) : Respects (Keeps id R P) (tcpUnhash net.env j) := by
  have hlast : Respects (Keeps id R P) (do let _ ← getSk net.env j : Prog Local Unit) :=
    Keeps.bind (keeps_getSk j) fun _ => keeps_pure _
  refine Keeps.bind (keeps_getSk j) fun t => ?_
  split_ifs
  · exact Keeps.bind (keeps_modifySk (hh false)) fun _ =>
      Keeps.bind (keeps_modifyWorld fun _ => rfl) fun _ =>
        Keeps.bind (keeps_freeSock j hr) fun _ => hlast
  · exact hlast

omit hh in
lemma keeps_tcpUnbhash (hb : ∀ t : TcpSock, R t { t with bhashed := false }) (j : ℕ) :
    Respects (Keeps id R P) (tcpUnbhash net.env j) := by
  refine Keeps.bind (keeps_getSk j) fun t => ?_
  split_ifs
  · exact Keeps.bind (keeps_modifySk hb) fun _ =>
      Keeps.bind (keeps_modifyWorld fun _ => rfl) fun _ => keeps_freeSock j hr
  · exact keeps_pure _

end Tables

section Send

structure Answers (seg : TcpSegment) (e : Sent) : Prop where
  saddr : e.saddr = seg.iphdrDst
  daddr : e.daddr = seg.iphdrSrc
  src : e.out.src = seg.tcphdrDst
  dst : e.out.dst = seg.tcphdrSrc
  data : e.out.data = []

variable (hd : ∀ dst t, R t (setDst dst t))

include hd

lemma keeps_tcpSendOut (tsk : Option ℕ) (pkb : Pkbuf) (seg : Option TcpSegment)
    (hp : ∀ saddr daddr, (∀ g ∈ seg, saddr = g.iphdrDst ∧ daddr = g.iphdrSrc) → P ⟨saddr, daddr, out⟩) :
    Respects (Keeps id R P) (tcpSendOut net.env tsk pkb out seg) := by
  have hseq : Sequential fun (α : Type) (x : Prog Local α) => Respects (Keeps id R P) x := ⟨keeps_pure, Keeps.bind⟩
  apply sequential_tcpSendOut hseq
  · exact fun j _ => keeps_getSk j
  · exact keeps_fault
  · intro daddr
    apply sequential_tcpRoute hseq
    · exact fun j _ => keeps_getSk j
    · exact keeps_pure _
    · exact fun j _ rt => keeps_modifySk (hd _)
  · exact keeps_pure _
  · rintro rt saddr daddr hseg s a s' h
    cases h
    exact ⟨fun t ht => ⟨t, ht, refl_of R t⟩, [⟨saddr, daddr, out⟩], rfl, by simpa using hp saddr daddr hseg⟩

lemma keeps_answer {j : Option ℕ}
    (hsrc : out.src = seg.tcphdrDst) (hdst : out.dst = seg.tcphdrSrc) (hdata : out.data = []) :
    Respects (Keeps id R (Answers seg)) (tcpSendOut net.env j pkb out (some seg)) := by
  apply keeps_tcpSendOut hd
  intro saddr daddr haddr
  obtain ⟨h1, h2⟩ := haddr seg rfl
  exact ⟨h1, h2, hsrc, hdst, hdata⟩

lemma keeps_tcpSendReset (seg : TcpSegment) : Respects (Keeps id R (Answers seg)) (tcpSendReset net.env seg) := by
  rw [tcpSendReset]
  split_ifs
  · exact keeps_pure _
  · exact Keeps.bind (keeps_pure _) fun _ => keeps_answer hd rfl rfl rfl

lemma keeps_tcpSendAck (j : ℕ) (seg : TcpSegment) :
    Respects (Keeps id R (Answers seg)) (tcpSendAck net.env j (some seg)) := by
  rw [tcpSendAck]
  split_ifs
  · exact keeps_pure _
  · exact Keeps.bind (keeps_pure _) fun _ => Keeps.bind (keeps_getSk j) fun _ =>
      keeps_answer hd rfl rfl rfl

lemma keeps_tcpSendSynack (j : ℕ) (seg : TcpSegment) :
    Respects (Keeps id R (Answers seg)) (tcpSendSynack net.env j seg) := by
  rw [tcpSendSynack]
  split_ifs
  · exact keeps_pure _
  · exact Keeps.bind (keeps_pure _) fun _ => Keeps.bind (keeps_getSk j) fun _ =>
      keeps_answer hd rfl rfl rfl

lemma keeps_tcpSendSyn (hp : ∀ e : Sent, e.out.data = [] → P e) (j : ℕ) :
    Respects (Keeps id R P) (tcpSendSyn net.env j) :=
  Keeps.bind (keeps_pure _) fun _ => Keeps.bind (keeps_getSk j) fun _ =>
    keeps_tcpSendOut hd _ _ _ fun _ _ _ => hp _ rfl

lemma keeps_tcpSendFin (hp : ∀ e : Sent, e.out.data = [] → P e) (j : ℕ) :
    Respects (Keeps id R P) (tcpSendFin net.env j) :=
  Keeps.bind (keeps_pure _) fun _ => Keeps.bind (keeps_getSk j) fun _ =>
    keeps_tcpSendOut hd _ _ _ fun _ _ _ => hp _ rfl

end Send

structure Blind (R : TcpSock → TcpSock → Prop) : Prop where
  refcnt : ∀ n t, R t (setRefcnt n t)
  hashed : ∀ b t, R t (setHashed b t)
  bhashed : ∀ t : TcpSock, R t { t with bhashed := false }
  dst : ∀ dst t, R t (setDst dst t)
  parent : ∀ p (t : TcpSock), R t { t with parent := p }
  queues : ∀ l a (t : TcpSock), R t { t with listenQueue := l, acceptQueue := a }
  backlog : ∀ n (t : TcpSock), R t { t with acceptBacklog := n }

lemma keeps_wakeUp (b : Bool) : Respects (Keeps id R P) (wakeUp b : Prog Local Unit) := by
  rw [wakeUp]
  split_ifs
  · exact keeps_pure _
  · exact keeps_fault

section Blind

variable (hb : Blind R)

include hb

lemma keeps_drop (j : ℕ) (seg : TcpSegment) (pkb : Pkbuf) :
    Respects (Keeps id R (Answers seg)) (drop net.env j seg pkb) := by
  apply Keeps.bind (keeps_getSk j)
  intro t
  split_ifs
  · exact Keeps.bind (keeps_tcpSendAck hb.dst j seg) fun _ => keeps_pure _
  · exact keeps_pure _

lemma keeps_tcpSynrecvAck (j : ℕ) : Respects (Keeps id R P) (tcpSynrecvAck net.env j) := by
  apply Keeps.bind (keeps_getSk j)
  intro t
  cases t.parent with
  | none => exact keeps_fault
  | dead => exact keeps_fault
  | sock parent =>
    apply Keeps.bind (keeps_getSk parent)
    intro p
    split_ifs
    · exact keeps_pure _
    · exact keeps_pure _
    · refine Keeps.bind (keeps_modifySk fun _ => hb.queues _ _ _) fun _ => ?_
      refine Keeps.bind (keeps_modifySk fun _ => hb.backlog _ _) fun _ => ?_
      apply Keeps.bind (keeps_getSk parent)
      intro p
      exact Keeps.bind (keeps_wakeUp _) fun _ => keeps_pure _

lemma keeps_checkRst (hc : ∀ t : TcpSock, R t { t with state := .closed }) (j : ℕ) :
    Respects (Keeps id R P) (checkRst net.env j) := by
  have hunhash : Respects (Keeps id R P) (tcpUnhash net.env j) := keeps_tcpUnhash hb.refcnt hb.hashed j
  have hend : Respects (Keeps id R P) (do
      modifySk net.env j (fun t => { t with state := .closed })
      tcpUnhash net.env j
      tcpUnbhash net.env j : Prog Local Unit) :=
    Keeps.bind (keeps_modifySk hc) fun _ =>
      Keeps.bind hunhash fun _ => keeps_tcpUnbhash hb.refcnt hb.bhashed j
  apply Keeps.bind (keeps_getSk j)
  intro t
  split_ifs
  · exact Keeps.bind hunhash fun _ => hend
  · exact hend

lemma keeps_checkSyn (hc : seg.syn = true → ∀ t : TcpSock, R t { t with state := .closed })
    (j : ℕ) : Respects (Keeps id R (Answers seg)) (checkSyn net.env j seg) := by
  rw [checkSyn]
  split_ifs with hsyn
  · have hend : Respects (Keeps id R (Answers seg)) (do
        modifySk net.env j (fun t => { t with state := .closed })
        freeSock net.env j : Prog Local Unit) :=
      Keeps.bind (keeps_modifySk (hc hsyn)) fun _ => keeps_freeSock j hb.refcnt
    apply Keeps.bind (keeps_tcpSendReset hb.dst seg)
    intro _
    apply Keeps.bind (keeps_getSk j)
    intro t
    split_ifs
    · exact Keeps.bind (keeps_tcpUnhash hb.refcnt hb.hashed j) fun _ => hend
    · exact hend
  · exact keeps_pure _

lemma keeps_tcpClearListenQueue (j fuel : ℕ) : Respects (Keeps id R P) (tcpClearListenQueue net.env j fuel) := by
  have hfree (k : ℕ) : Respects (Keeps id R P) (freeSock net.env k) := keeps_freeSock k hb.refcnt
  induction fuel with
  | zero => exact keeps_pure _
  | succ fuel ih =>
    rw [tcpClearListenQueue]
    apply Keeps.bind (keeps_getSk j)
    intro t
    cases t.listenQueue with
    | nil => exact keeps_pure _
    | cons child rest =>
      refine Keeps.bind (keeps_modifySk fun t => hb.queues rest t.acceptQueue t) fun _ => ?_
      apply Keeps.bind (keeps_getSk child)
      intro ltsk
      have hclear : Respects (Keeps id R P) (do
          modifySk net.env child (fun t => { t with parent := .none })
          tcpUnhash net.env child
          freeSock net.env child
          tcpClearListenQueue net.env j fuel : Prog Local Unit) :=
        Keeps.bind (keeps_modifySk (hb.parent .none)) fun _ =>
          Keeps.bind (keeps_tcpUnhash hb.refcnt hb.hashed child) fun _ => Keeps.bind (hfree child) fun _ => ih
      split_ifs
      · cases ltsk.parent with
        | sock parent => exact Keeps.bind (hfree parent) fun _ => hclear
        | none => exact Keeps.bind keeps_fault fun _ => hclear
        | dead => exact Keeps.bind keeps_fault fun _ => hclear
      · exact ih

end Blind

/-- A run of the loop of `tcp_send_text` that returns. -/
inductive Turns (net : Net) (id : ℕ) (buf : List UInt8) (len m : ℤ) (s' : Local) : ℤ → ℤ → Local → Prop
  | done {segsize : ℤ} : ¬m < len → Turns net id buf len m s' segsize m s'
  | turn {segsize slen size : ℤ} {s s1 : Local} {t : TcpSock} {pkb : Pkbuf} : slen < len →
      size = min segsize (len - slen) → s.sock id = some t →
      tcpSendOut net.env (some id) pkb (textOf t (slice buf slen.toNat size.toNat)
        (decide (slen + size ≥ len))) none (s.put id (takeCredit size t)) = .ok ((), s1) →
      Turns net id buf len m s' size (slen + size) s1 → Turns net id buf len m s' segsize slen s

section Turns

variable {j fuel : ℕ} {buf : List UInt8} {len m segsize slen : ℤ}

lemma sendTextLoop_turns (hrun : sendTextLoop net.env j buf len fuel segsize slen s = .ok (m, s')) :
    Turns net j buf len m s' segsize slen s := by
  induction fuel generalizing segsize slen s with
  | zero =>
    rw [sendTextLoop] at hrun
    split_ifs at hrun with hlt
    · simp [fault] at hrun
    · cases hrun
      exact .done hlt
  | succ fuel ih =>
    rw [sendTextLoop] at hrun
    split_ifs at hrun with hlt
    · obtain ⟨pkb, s1, halloc, hrest⟩ := bind_inv hrun
      cases halloc
      obtain ⟨t, s2, rfl, ht, hrest'⟩ := getSk_bind_inv hrest
      rw [bind_run (modifySk_run _ ht)] at hrest'
      obtain ⟨⟨⟩, s3, hsend, hloop⟩ := bind_inv hrest'
      exact .turn hlt rfl ht hsend (ih hloop)
    · cases hrun
      exact .done hlt

lemma Turns.segsize_pos (h : Turns net j buf len m s' segsize slen s) (hlt : slen < len) : 0 < segsize := by
  induction h with
  | done hge => exact absurd hlt hge
  | turn _ _ _ _ _ ih =>
    by_contra hle
    have := ih (by omega)
    omega

lemma Turns.nonneg (h : Turns net j buf len m s' segsize slen s) (hslen : 0 ≤ slen) : 0 ≤ m := by
  induction h with
  | done => exact hslen
  | turn hlt hsize ht hout hrest ih =>
    have hpos := (Turns.turn hlt hsize ht hout hrest).segsize_pos hlt
    exact ih (by omega)

lemma Turns.reaches (h : Turns net j buf len m s' segsize slen s) : len ≤ m := by
  induction h with
  | done hge => exact not_lt.mp hge
  | turn _ _ _ _ _ ih => exact ih

lemma tcpSendText_inv (hrun : tcpSendText net.env j buf len s = .ok (m, s')) : ∃ t segsize,
    s.sock j = some t ∧ m ≠ 0 ∧ Turns net j buf (min len (toInt t.sndWnd)) m s' segsize 0 s := by
  obtain ⟨t, s1, rfl, ht, hrest⟩ := getSk_bind_inv hrun
  cases hd : t.sk.skDst with
  | none => simp [hd, fault] at hrest
  | some rt =>
    rw [hd] at hrest
    obtain ⟨mtu, s2, hmtu, hrest'⟩ := bind_inv hrest
    cases hmtu
    obtain ⟨slen, s3, hloop, hend⟩ := bind_inv hrest'
    split_ifs at hend with hz
    · -- nothing sent ends in a null pointer
      obtain ⟨⟨⟩, s4, hack, -⟩ := bind_inv hend
      simp [tcpSendAck, fault] at hack
    · cases hend
      exact ⟨t, _, ht, hz, sendTextLoop_turns hloop⟩

lemma keeps_tcpSendText (hd : ∀ dst t, R t (setDst dst t)) (hv : ∀ n t, R t (takeCredit n t))
    (hp : ∀ e : Sent, e.out.ack = true → P e) (j : ℕ) (buf : List UInt8) (len : ℤ) :
    Respects (Keeps id R P) (tcpSendText net.env j buf len) := by
  intro s n s' hrun
  obtain ⟨t, segsize, -, -, hturns⟩ := tcpSendText_inv hrun
  generalize (0 : ℤ) = slen at hturns
  clear hrun
  induction hturns with
  | done => exact Keeps.refl _
  | @turn _ _ size _ _ _ _ _ _ ht hout _ ih =>
    refine Keeps.trans (Keeps.trans ?_ (keeps_tcpSendOut hd _ _ _ (fun _ _ _ => hp _ rfl) _ _ _ hout)) ih
    exact keeps_modifySk (hv size) _ _ _ (@modifySk_run net _ _ _ _ ht)

end Turns

end Frame

end Tapip.Tcp.Connection
