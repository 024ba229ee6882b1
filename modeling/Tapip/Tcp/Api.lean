import Tapip.Tcp.Ports
import Tapip.Tcp.State

/-! What the user calls on a sock (tcp/tcp_sock.c). -/

namespace Tapip.Tcp

open Lib Foundation.Buckets Foundation.Program Text

def TCP_MAX_BACKLOG : ℤ := 128

section Api

variable {σ : Type} (env : TcpEnv σ)

-- Up to the point where the caller goes to sleep.
def tcpConnect (id : ℕ) (daddr : UInt32) (dport : UInt16) : Prog σ Bool := do
  if (← getSk env id).state ≠ .closed then return false
  else
    let iss ← allocNewIss env
    modifySk env id (fun t => { t with
      sk := { t.sk with skDaddr := daddr, skDport := dport }
      state := .synSent
      iss := iss
      sndUna := iss
      sndNxt := iss + 1 })
    if !(← tcpHash env id) then
      modifySk env id (fun t => { t with state := .closed })
      return false
    else
      modifySk env id (fun t => { t with waitConnect := true })
      tcpSendSyn env id
      return true

-- After `tcp_wait_connect`, which fails if the socket has been closed meanwhile.
def tcpConnectWoken (id : ℕ) (err : Bool) : Prog σ Bool := do
  modifySk env id (fun t => { t with waitConnect := false })
  if err || decide ((← getSk env id).state ≠ .established) then
    tcpUnhash env id
    tcpUnbhash env id
    modifySk env id (fun t => { t with state := .closed })
    return false
  else return true

def tcpPortUsed (w : TcpWorld) (nport : UInt16) : Bool :=
  finds (fun t : TcpSock => t.sk.skSport) w.socks nport w.btable

def tcpBhash (id : ℕ) : Prog σ Unit := do
  modifySk env id (fun t => setRefcnt (t.sk.refcnt + 1) { t with bhashed := true })
  modifyWorld env (fun w => { w with btable := id :: w.btable })

-- With the result goes the value of the static variable `defport`.
def tcpSetSport (id : ℕ) (nport defport : UInt16) : Prog σ (Bool × UInt16) := do
  let w ← getWorld env
  let (nport, defport) ← liftExcept (Ports.choosePort (tcpPortUsed w) w.bfree defport nport)
  if nport = 0 then return (false, defport)
  else
    modifyWorld env (fun w => { w with bfree := w.bfree - 1 })
    modifySk env id (fun t => { t with sk := { t.sk with skSport := nport } })
    tcpBhash env id
    return (true, defport)

def tcpOpsListen (id : ℕ) (backlog : ℤ) : Prog σ Bool := do
  let tsk ← getSk env id
  if tsk.sk.skSport = 0 then return false
  else if backlog > TCP_MAX_BACKLOG then return false
  else if tsk.state ≠ .closed ∧ tsk.state ≠ .listen then return false
  else
    modifySk env id (fun t => { t with backlog := backlog, state := .listen })
    if tsk.state ≠ .listen then
      let _ ← tcpHash env id
    return true

-- The caller sleeps on its socket; `inet_socket` links sock and socket when it sets `recv_wait`.
def sleepOn (id : ℕ) : Prog σ Unit := do
  if (← getSk env id).sk.recvWait then pure () else fault .nullPointer

def tcpAccept (id : ℕ) : Prog σ (Option ℕ) := do
  match (← getSk env id).acceptQueue with
  | [] =>
    sleepOn env id
    modifySk env id (fun t => { t with waitAccept := true })
    return none
  | new :: rest =>
    modifySk env id (fun t => { t with acceptQueue := rest, acceptBacklog := t.acceptBacklog - 1 })
    freeSock env new
    match (← getSk env new).parent with
    | .sock parent => freeSock env parent
    | _ => fault .nullPointer
    modifySk env new (fun t => { t with parent := .dead })
    return some new

def tcpClearListenQueue (id : ℕ) : ℕ → Prog σ Unit
  | 0 => pure ()
  | fuel + 1 => do
    match (← getSk env id).listenQueue with
    | [] => pure ()
    | child :: rest =>
      modifySk env id (fun t => { t with listenQueue := rest })
      let ltsk ← getSk env child
      if ltsk.state = .synRecv then
        match ltsk.parent with
        | .sock parent => freeSock env parent
        | _ => fault .nullPointer
        modifySk env child (fun t => { t with parent := .none })
        tcpUnhash env child
        freeSock env child
      tcpClearListenQueue id fuel

def sendFin (id : ℕ) (state : TcpState) : Prog σ Unit := do
  modifySk env id (fun t => { t with state := state })
  tcpSendFin env id
  modifySk env id (fun t => { t with sndNxt := t.sndNxt + 1 })

def tcpClose (id : ℕ) : Prog σ Unit := do
  let tsk ← getSk env id
  match tsk.state with
  | .listen =>
    tcpClearListenQueue env id tsk.listenQueue.length
    tcpUnhash env id
    tcpUnbhash env id
    modifySk env id (fun t => { t with state := .closed })
  | .established => sendFin env id .finWait1
  | .closeWait => sendFin env id .lastAck
  | _ => pure ()
  let tsk ← getSk env id
  modifySk env id (fun t => { t with rcvBuf := none, rcvReass := [] })
  (tsk.rcvReass.map TcpReassHead.pkb).forM env.freePkb

def sendable : TcpState → Bool
  | .established | .closeWait => true
  | _ => false

def tcpSendBuf (id : ℕ) (buf : List UInt8) (len : ℤ) : Prog σ ℤ := do
  if sendable (← getSk env id).state then tcpSendText env id buf len
  else return -1

def textWaits (tsk : TcpSock) : Bool := tsk.rcvBuf.any (fun c => cbufUsed c ≠ 0)

def recvable (tsk : TcpSock) : Bool :=
  match tsk.state with
  | .established | .finWait1 | .finWait2 => true
  | .closeWait => textWaits tsk
  | _ => false

inductive Recv
  | returns (ret : ℤ)
  | sleeps (rlen : ℤ)
deriving DecidableEq, Repr

-- The end of one turn of the loop of `tcp_recv_buf`: wait until the buffer is filled.
def recvGoOn (id : ℕ) (len : ℤ) (loop : ℤ → Prog σ Recv) (rlen : ℤ) : Prog σ Recv := do
  let tsk ← getSk env id
  if !(tsk.push || textWaits tsk || decide (rlen ≥ len)) then
    if tsk.sk.recvWait then return .sleeps rlen
    else fault .nullPointer
  else if tsk.push && !textWaits tsk then
    modifySk env id (fun t => { t with push := false })
    return .returns rlen
  else loop rlen

def recvLoop (id : ℕ) (len : ℤ) : ℕ → ℤ → Prog σ Recv
  | fuel, rlen =>
    if rlen < len then
      match fuel with
      | 0 => fault .hang
      | fuel + 1 => do
        let tsk ← getSk env id
        let (buf, tsk) ← liftExcept (tcpReadBuf tsk (len - rlen))
        modifySk env id (fun _ => tsk)
        recvGoOn env id len (recvLoop id len fuel) (rlen + buf.length)
    else pure (.returns rlen)

def tcpRecvBuf (id : ℕ) (len : ℤ) : Prog σ Recv := do
  if recvable (← getSk env id) then recvLoop env id len (len.toNat + 1) 0
  else return .returns (-1)

def tcpRecvBufWoken (id : ℕ) (len rlen : ℤ) (err : Bool) : Prog σ Recv :=
  if err then return .returns (if rlen > 0 then rlen else -1)
  else recvGoOn env id len (recvLoop env id len (len.toNat + 1)) rlen

end Api

end Tapip.Tcp
