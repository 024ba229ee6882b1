import Tapip.Tcp.World

/-! Segments the stack sends (tcp/tcp_out.c, the sending half of tcp/tcp_text.c). -/

namespace Tapip.Tcp

open Net.Pkb Foundation.Bytes Foundation.Program

variable {pkb : Pkbuf} {out : OutTcp} {seg : Option TcpSegment}

def IP_TCP_HRD_SZ : ℤ := 40

section Out

variable {σ : Type} (env : TcpEnv σ)

def tcpRoute (tsk : Option ℕ) (daddr : UInt32) : Prog σ (Option RtEntry) := do
  let dst ← match tsk with
    | none => pure none
    | some id => do
      let t ← getSk env id
      pure t.sk.skDst
  match dst with
  | some rt => return some rt
  | none =>
    match ← env.rtLookup daddr with
    | none => return none
    | some rt =>
      if let some id := tsk then modifySk env id (fun t => { t with sk := { t.sk with skDst := some rt } })
      return some rt

def tcpSendOut (tsk : Option ℕ) (pkb : Pkbuf) (out : OutTcp) (seg : Option TcpSegment) :
    Prog σ Unit := do
  let (saddr, daddr) ← match seg, tsk with
    | some seg, _ => pure (seg.iphdrDst, seg.iphdrSrc)
    | none, some id => do
      let t ← getSk env id
      pure (t.sk.skSaddr, t.sk.skDaddr)
    | none, none => fault .assertion
  match ← tcpRoute env tsk daddr with
  | none => env.freePkb pkb
  | some rt => env.ipSendOut pkb rt saddr daddr out

section Sequential

variable {env} {W : (α : Type) → Prog σ α → Prop} {tsk : Option ℕ}

lemma sequential_tcpRoute {daddr : UInt32} (hW : Sequential W) (hget : ∀ id ∈ tsk, W _ (getSk env id))
    (hlookup : W _ (env.rtLookup daddr))
    (hset : ∀ id ∈ tsk, ∀ rt, W _ (modifySk env id fun t => { t with sk := { t.sk with skDst := some rt } })) :
    W _ (tcpRoute env tsk daddr) := by
  cases tsk with
  | none =>
    refine hW.bind (hW.pure none) fun dst => ?_
    cases dst with
    | some rt => exact hW.pure _
    | none =>
      refine hW.bind hlookup fun found => ?_
      cases found with
      | none => exact hW.pure _
      | some rt => exact hW.pure _
  | some id =>
    refine hW.bind (hget id rfl) fun t => hW.bind (hW.pure t.sk.skDst) fun dst => ?_
    cases dst with
    | some rt => exact hW.pure _
    | none =>
      refine hW.bind hlookup fun found => ?_
      cases found with
      | none => exact hW.pure _
      | some rt => exact hW.bind (hset id rfl rt) fun _ => hW.pure _

lemma tcpSendOut_rule {V : Prog σ Unit → Prop} (hpure : ∀ {α : Type} (a : α), W α (pure a))
    (hbind : ∀ {α : Type} {x : Prog σ α} {f : α → Prog σ Unit}, W α x → (∀ a, V (f a)) → V (x >>= f))
    (hget : ∀ id ∈ tsk, W _ (getSk env id)) (hnone : W (UInt32 × UInt32) (fault .assertion))
    (hroute : ∀ daddr, W _ (tcpRoute env tsk daddr)) (hfree : V (env.freePkb pkb))
    (hsend : ∀ rt saddr daddr, (∀ g ∈ seg, saddr = g.iphdrDst ∧ daddr = g.iphdrSrc) →
      V (env.ipSendOut pkb rt saddr daddr out)) : V (tcpSendOut env tsk pkb out seg) := by
  simp only [tcpSendOut]
  cases seg with
  | some g =>
    simp only [pure_bind]
    refine hbind (hroute g.iphdrSrc) fun r => ?_
    cases r with
    | none => exact hfree
    | some rt =>
      apply hsend
      intro g' hg
      cases hg
      exact ⟨rfl, rfl⟩
  | none =>
    cases tsk with
    | some id =>
      refine hbind (hget id rfl) fun t => hbind (hpure _) fun p => hbind (hroute p.2) fun r => ?_
      cases r with
      | none => exact hfree
      | some rt => exact hsend rt p.1 p.2 (by simp)
    | none =>
      refine hbind hnone fun p => hbind (hroute p.2) fun r => ?_
      cases r with
      | none => exact hfree
      | some rt => exact hsend rt p.1 p.2 (by simp)

lemma sequential_tcpSendOut (hW : Sequential W)
    (hget : ∀ id ∈ tsk, W _ (getSk env id)) (hnone : W (UInt32 × UInt32) (fault .assertion))
    (hroute : ∀ daddr, W _ (tcpRoute env tsk daddr)) (hfree : W _ (env.freePkb pkb))
    (hsend : ∀ rt saddr daddr, (∀ g ∈ seg, saddr = g.iphdrDst ∧ daddr = g.iphdrSrc) →
      W _ (env.ipSendOut pkb rt saddr daddr out)) : W _ (tcpSendOut env tsk pkb out seg) :=
  tcpSendOut_rule (V := W Unit) hW.pure hW.bind hget hnone hroute hfree hsend

end Sequential

def resetOf (seg : TcpSegment) : OutTcp where
  src := seg.tcphdrDst
  dst := seg.tcphdrSrc
  seq := if seg.ackBit then seg.ack else 0
  ackn := if seg.ackBit then 0 else seg.seq + seg.len
  fin := false
  syn := false
  rst := true
  psh := false
  ack := !seg.ackBit
  window := 0
  data := []

def ackOf (tsk : TcpSock) (seg : TcpSegment) : OutTcp where
  src := seg.tcphdrDst
  dst := seg.tcphdrSrc
  seq := tsk.sndNxt
  ackn := tsk.rcvNxt
  fin := false
  syn := false
  rst := false
  psh := false
  ack := true
  window := tsk.rcvWnd.toUInt16
  data := []

def synackOf (tsk : TcpSock) (seg : TcpSegment) : OutTcp :=
  { ackOf tsk seg with seq := tsk.iss, syn := true }

def synOf (tsk : TcpSock) : OutTcp where
  src := tsk.sk.skSport
  dst := tsk.sk.skDport
  seq := tsk.iss
  ackn := 0
  fin := false
  syn := true
  rst := false
  psh := false
  ack := false
  window := tsk.rcvWnd.toUInt16
  data := []

def finOf (tsk : TcpSock) : OutTcp :=
  { synOf tsk with seq := tsk.sndNxt, ackn := tsk.rcvNxt, fin := true, syn := false, ack := true }

def textOf (tsk : TcpSock) (buf : List UInt8) (psh : Bool) : OutTcp :=
  { finOf tsk with fin := false, psh := psh, data := buf }

def tcpSendReset (seg : TcpSegment) : Prog σ Unit :=
  if seg.rst then pure ()
  else do
    let opkb ← env.allocPkb (ETH_HRD_SZ + IP_TCP_HRD_SZ)
    tcpSendOut env none opkb (resetOf seg) (some seg)

def tcpSendAck (id : ℕ) (seg : Option TcpSegment) : Prog σ Unit :=
  match seg with
  | none => fault .nullPointer
  | some seg =>
    if seg.rst then pure ()
    else do
      let opkb ← env.allocPkb (ETH_HRD_SZ + IP_TCP_HRD_SZ)
      let tsk ← getSk env id
      tcpSendOut env (some id) opkb (ackOf tsk seg) (some seg)

def tcpSendSynack (id : ℕ) (seg : TcpSegment) : Prog σ Unit :=
  if seg.rst then pure ()
  else do
    let opkb ← env.allocPkb (ETH_HRD_SZ + IP_TCP_HRD_SZ)
    let tsk ← getSk env id
    tcpSendOut env (some id) opkb (synackOf tsk seg) (some seg)

def tcpSendSyn (id : ℕ) : Prog σ Unit := do
  let opkb ← env.allocPkb (ETH_HRD_SZ + IP_TCP_HRD_SZ)
  let tsk ← getSk env id
  tcpSendOut env (some id) opkb (synOf tsk) none

def tcpSendFin (id : ℕ) : Prog σ Unit := do
  let opkb ← env.allocPkb (ETH_HRD_SZ + IP_TCP_HRD_SZ)
  let tsk ← getSk env id
  tcpSendOut env (some id) opkb (finOf tsk) none

def takeCredit (size : ℤ) (tsk : TcpSock) : TcpSock :=
  { tsk with sndNxt := tsk.sndNxt + UInt32.ofInt size, sndWnd := tsk.sndWnd - UInt32.ofInt size }

def sendTextLoop (id : ℕ) (buf : List UInt8) (len : ℤ) : ℕ → ℤ → ℤ → Prog σ ℤ
  | fuel, segsize, slen =>
    if slen < len then
      match fuel with
      | 0 => fault .hang
      | fuel + 1 => do
        let segsize := min segsize (len - slen)
        let pkb ← env.allocPkb (ETH_HRD_SZ + IP_TCP_HRD_SZ + segsize)
        let tsk ← getSk env id
        modifySk env id (takeCredit segsize)
        let slen' := slen + segsize
        tcpSendOut env (some id) pkb
          (textOf tsk (slice buf slen.toNat segsize.toNat) (decide (slen' ≥ len))) none
        sendTextLoop id buf len fuel segsize slen'
    else pure slen

def tcpSendText (id : ℕ) (buf : List UInt8) (len : ℤ) : Prog σ ℤ := do
  let tsk ← getSk env id
  match tsk.sk.skDst with
  | none => fault .nullPointer
  | some rt =>
    let mtu ← env.netMtu rt
    let len := min len (toInt tsk.sndWnd)
    let slen ← sendTextLoop env id buf len len.toNat (mtu - IP_TCP_HRD_SZ) 0
    if slen = 0 then
      tcpSendAck env id none
      return -1
    else return slen

end Out

end Tapip.Tcp
