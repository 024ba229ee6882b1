import Tapip.Tcp.Out

/-! The state machine of segment arrival (tcp/tcp_state.c). -/

namespace Tapip.Tcp

open Net.Pkb Foundation.Program Text

def updateWindow (tsk : TcpSock) (seg : TcpSegment) : TcpSock :=
  { tsk with sndWnd := seg.wnd, sndWl1 := seg.seq, sndWl2 := seg.ack }

def windowNewer (tsk : TcpSock) (seg : TcpSegment) : Bool :=
  (decide (tsk.sndUna ≤ seg.ack) && decide (seg.ack ≤ tsk.sndNxt)) &&
    (decide (tsk.sndWl1 < seg.seq) || (decide (tsk.sndWl1 = seg.seq) && decide (tsk.sndWl2 ≤ seg.ack)))

def tcpUpdateWindow (tsk : TcpSock) (seg : TcpSegment) : TcpSock :=
  if windowNewer tsk seg then updateWindow tsk seg else tsk

def acksNew (tsk : TcpSock) (seg : TcpSegment) : Bool :=
  decide (tsk.sndUna < seg.ack) && decide (seg.ack ≤ tsk.sndNxt)

def synchronized : TcpState → Bool
  | .established | .finWait1 | .finWait2 | .closeWait | .closing | .lastAck | .timeWait => true
  | _ => false

def receives : TcpState → Bool
  | .established | .finWait1 | .finWait2 => true
  | _ => false

section Process

variable {σ : Type} (env : TcpEnv σ)

def tcpListenChildSock (id : ℕ) (seg : TcpSegment) : Prog σ (Option ℕ) := do
  let w ← getWorld env
  let new := w.nextSock
  let child : TcpSock := { tcpAllocSock with
    state := .synRecv
    sk := { tcpAllocSock.sk with
      skSaddr := seg.iphdrDst, skDaddr := seg.iphdrSrc
      skSport := seg.tcphdrDst, skDport := seg.tcphdrSrc } }
  modifyWorld env (fun w => { w with
    socks := Function.update w.socks new (some child), nextSock := new + 1, tcpId := w.tcpId + 1 })
  if !(← tcpHash env new) then
    modifyWorld env (fun w => { w with socks := Function.update w.socks new none })
    return none
  else
    getSock env id
    modifySk env new (fun t => { t with parent := .sock id })
    modifySk env id (fun t => { t with listenQueue := new :: t.listenQueue })
    getSock env new
    return some new

def tcpListen (pkb : Pkbuf) (seg : TcpSegment) (id : ℕ) : Prog σ Unit := do
  if seg.rst then env.freePkb pkb
  else if seg.ackBit then
    tcpSendReset env seg
    env.freePkb pkb
  else if !seg.syn then env.freePkb pkb
  else
    match ← tcpListenChildSock env id seg with
    | none => env.freePkb pkb
    | some new =>
      let iss ← allocNewIss env
      modifySk env new (fun t => { t with irs := seg.seq, iss := iss, rcvNxt := seg.seq + 1 })
      tcpSendSynack env new seg
      modifySk env new (fun t => { t with sndNxt := t.iss + 1, sndUna := t.iss })
      env.freePkb pkb

def tcpClosed (id : Option ℕ) (pkb : Pkbuf) (seg : TcpSegment) : Prog σ Unit := do
  if id.isNone then tcpSendReset env seg
  env.freePkb pkb

def synsentSyn (seg : TcpSegment) (tsk : TcpSock) : TcpSock :=
  { tsk with
    irs := seg.seq
    rcvNxt := seg.seq + 1
    sndUna := if seg.ackBit then seg.ack else tsk.sndUna }

def tcpSynsent (pkb : Pkbuf) (seg : TcpSegment) (id : ℕ) : Prog σ Unit := do
  let tsk ← getSk env id
  if seg.ackBit && (decide (seg.ack ≤ tsk.iss) || decide (seg.ack > tsk.sndNxt)) then
    tcpSendReset env seg
    env.freePkb pkb
  else if seg.rst then
    if seg.ackBit then modifySk env id (fun t => { t with state := .closed })
    env.freePkb pkb
  else if seg.syn then
    modifySk env id (synsentSyn seg)
    if (synsentSyn seg tsk).sndUna > tsk.iss then
      modifySk env id (fun t => updateWindow { t with state := .established } seg)
      tcpSendAck env id (some seg)
      wakeUp (← getSk env id).waitConnect
      env.freePkb pkb
    else
      -- simultaneous open: the buffer is not given back
      modifySk env id (fun t => { t with state := .synRecv })
      tcpSendSynack env id seg
  else env.freePkb pkb

def tcpSynrecvAck (id : ℕ) : Prog σ Bool := do
  match (← getSk env id).parent with
  | .none => fault .nullPointer
  | .dead => fault .nullPointer
  | .sock parent =>
    let p ← getSk env parent
    if p.state ≠ .listen then return false
    else if p.acceptBacklog ≥ p.backlog then return false
    else
      modifySk env parent (fun p => { p with
        listenQueue := p.listenQueue.erase id, acceptQueue := id :: p.acceptQueue.erase id })
      -- the counter of the child goes up, not the one of the parent
      modifySk env id (fun t => { t with acceptBacklog := t.acceptBacklog + 1 })
      wakeUp (← getSk env parent).waitAccept
      return true

-- `false` is the jump to `drop`.
def checkAck (id : ℕ) (seg : TcpSegment) : Prog σ Bool := do
  let tsk ← getSk env id
  match tsk.state with
  | .synRecv =>
    if tsk.sndUna ≤ seg.ack && seg.ack ≤ tsk.sndNxt then
      if ← tcpSynrecvAck env id then
        modifySk env id (fun t => { updateWindow { t with sndUna := seg.ack } seg with
          state := .established })
        return true
      else return false
    else
      tcpSendReset env seg
      return false
  | .established | .closeWait | .lastAck | .finWait1 | .closing =>
    if acksNew tsk seg then
      modifySk env id (fun t => { t with sndUna := seg.ack })
      if tsk.state = .closing then
        tcpSetTimewaitTimer env id
        return false
      else if tsk.state = .lastAck then
        modifySk env id (fun t => { t with state := .closed })
        tcpUnhash env id
        tcpUnbhash env id
        return false
      else
        if tsk.state = .finWait1 then modifySk env id (fun t => { t with state := .finWait2 })
        modifySk env id (fun t => tcpUpdateWindow t seg)
        return true
    else if seg.ack > tsk.sndNxt then return false
    else
      modifySk env id (fun t => tcpUpdateWindow t seg)
      return true
  | _ => return true

def liftExcept {α : Type} (x : Except Fault α) : Prog σ α := fun s => x.map (·, s)

lemma liftExcept_inv {α : Type} {x : Except Fault α} {a : α} {s s' : σ} (h : liftExcept x s = .ok (a, s')) :
    s' = s ∧ x = .ok a := by
  cases x with
  | error e => cases h
  | ok a =>
    cases h
    exact ⟨rfl, rfl⟩

def checkText (id : ℕ) (seg : TcpSegment) (pkb : Pkbuf) : Prog σ TcpSegment := do
  let tsk ← getSk env id
  if receives tsk.state && (seg.psh || decide (seg.dlen > 0)) then
    let r ← liftExcept (tcpRecvText tsk seg pkb)
    modifySk env id (fun _ => r.tsk)
    if r.queued then env.getPkb pkb
    r.freed.forM env.freePkb
    return r.seg
  else return seg

def checkFin (id : ℕ) (seg : TcpSegment) : Prog σ Unit :=
  if seg.fin then do
    match (← getSk env id).state with
    | .synRecv | .established =>
      modifySk env id (fun t => { t with state := .closeWait, push := true })
    | .finWait1 => modifySk env id (fun t => { t with state := .closing })
    | .timeWait => modifySk env id (fun t => { t with timewait := some TCP_TIMEWAIT_TIMEOUT })
    | .finWait2 => tcpSetTimewaitTimer env id
    | _ => pure ()
    modifySk env id (fun t => { t with rcvNxt := seg.seq + 1, ackNow := true })
  else pure ()

def drop (id : ℕ) (seg : TcpSegment) (pkb : Pkbuf) : Prog σ Unit := do
  let tsk ← getSk env id
  if tsk.ackNow || tsk.ackDelay then tcpSendAck env id (some seg)
  env.freePkb pkb

def checkRst (id : ℕ) : Prog σ Unit := do
  let tsk ← getSk env id
  if tsk.state = .synRecv && decide (tsk.parent ≠ .none) then tcpUnhash env id
  modifySk env id (fun t => { t with state := .closed })
  tcpUnhash env id
  tcpUnbhash env id

def checkSyn (id : ℕ) (seg : TcpSegment) : Prog σ Unit :=
  if seg.syn then do
    tcpSendReset env seg
    let tsk ← getSk env id
    if tsk.state = .synRecv && decide (tsk.parent ≠ .none) then tcpUnhash env id
    modifySk env id (fun t => { t with state := .closed })
    freeSock env id
  else pure ()

def tcpArrive (pkb : Pkbuf) (seg : TcpSegment) (id : ℕ) : Prog σ Unit := do
  let tsk ← getSk env id
  if !seqCheck seg tsk then
    if !seg.rst then modifySk env id (fun t => { t with ackNow := true })
    drop env id seg pkb
  else if seg.rst then
    checkRst env id
    drop env id seg pkb
  else
    checkSyn env id seg
    if !seg.ackBit then drop env id seg pkb
    else if !(← checkAck env id seg) then drop env id seg pkb
    else
      let seg ← checkText env id seg pkb
      checkFin env id seg
      drop env id seg pkb

def tcpProcess (pkb : Pkbuf) (seg : TcpSegment) (id : Option ℕ) : Prog σ Unit :=
  match id with
  | none => tcpClosed env none pkb seg
  | some id => do
    match (← getSk env id).state with
    | .closed => tcpClosed env (some id) pkb seg
    | .listen => tcpListen env pkb seg id
    | .synSent => tcpSynsent env pkb seg id
    | _ => tcpArrive env pkb seg id

end Process

section Ack

variable {σ : Type} (env : TcpEnv σ)

def acking : List TcpState := [.established, .closeWait, .finWait1, .closing, .lastAck]

/-- What `checkAck` goes on with once it has read the sock. -/
inductive AckStep (id : ℕ) (seg : TcpSegment) (tsk : TcpSock) : Prog σ Bool → Prop
  | completes : tsk.state = .synRecv → tsk.sndUna ≤ seg.ack → seg.ack ≤ tsk.sndNxt → AckStep id seg tsk (do
      if ← tcpSynrecvAck env id then
        modifySk env id (fun t => { updateWindow { t with sndUna := seg.ack } seg with
          state := .established })
        return true
      else return false)
  | outside : tsk.state = .synRecv → ¬(tsk.sndUna ≤ seg.ack ∧ seg.ack ≤ tsk.sndNxt) → AckStep id seg tsk (do
      tcpSendReset env seg
      return false)
  | forward : tsk.state = .established ∨ tsk.state = .closeWait → acksNew tsk seg = true → AckStep id seg tsk (do
      modifySk env id (fun t => { t with sndUna := seg.ack })
      modifySk env id (fun t => tcpUpdateWindow t seg)
      return true)
  | finWait1 : tsk.state = .finWait1 → acksNew tsk seg = true → AckStep id seg tsk (do
      modifySk env id (fun t => { t with sndUna := seg.ack })
      modifySk env id (fun t => { t with state := .finWait2 })
      modifySk env id (fun t => tcpUpdateWindow t seg)
      return true)
  | closing : tsk.state = .closing → acksNew tsk seg = true → AckStep id seg tsk (do
      modifySk env id (fun t => { t with sndUna := seg.ack })
      tcpSetTimewaitTimer env id
      return false)
  | lastAck : tsk.state = .lastAck → acksNew tsk seg = true → AckStep id seg tsk (do
      modifySk env id (fun t => { t with sndUna := seg.ack })
      modifySk env id (fun t => { t with state := .closed })
      tcpUnhash env id
      tcpUnbhash env id
      return false)
  | beyond : tsk.state ∈ acking → acksNew tsk seg = false → seg.ack > tsk.sndNxt → AckStep id seg tsk (pure false)
  | old : tsk.state ∈ acking → acksNew tsk seg = false → ¬seg.ack > tsk.sndNxt → AckStep id seg tsk (do
      modifySk env id (fun t => tcpUpdateWindow t seg)
      return true)
  | other : tsk.state ∉ TcpState.synRecv :: acking → AckStep id seg tsk (pure true)

lemma checkAck_eq (id : ℕ) (seg : TcpSegment) : ∃ step : (tsk : TcpSock) → {x // AckStep env id seg tsk x},
    checkAck env id seg = getSk env id >>= fun tsk => (step tsk).1 := by
  refine ⟨fun tsk => ⟨_, ?_⟩, rfl⟩
  cases hs : tsk.state <;> simp only
  case synRecv =>
    split_ifs with hin
    · rw [Bool.and_eq_true, decide_eq_true_eq, decide_eq_true_eq] at hin
      exact .completes hs hin.1 hin.2
    · exact .outside hs (by simpa using hin)
  case established | closeWait | lastAck | finWait1 | closing =>
    simp only [reduceCtorEq, if_true, if_false]
    split_ifs with hnew hgt
    · first | exact .forward (.inl hs) hnew | exact .forward (.inr hs) hnew | exact .finWait1 hs hnew | exact .closing hs hnew | exact .lastAck hs hnew
    · exact .beyond (by simp [hs, acking]) (by simpa using hnew) hgt
    · exact .old (by simp [hs, acking]) (by simpa using hnew) hgt
  all_goals exact .other (by simp [hs, acking])

end Ack

end Tapip.Tcp
