import Tapip.Tcp.In
import Tapip.Tcp.Timer

/-! Stream sockets, the calls of their users and what else happens to their socks (socket/socket.c,
socket/inet.c). -/

namespace Tapip.Sockets.Inet

open Net.Pkb Foundation.Program Tcp Tcp.Connection

-- `dead` is the flag of the wait object; the operations are there as long as the socket is.
structure Socket where
  sk : Option ℕ
  dead : Bool
  refcnt : ℤ
deriving DecidableEq, Repr

/-- A call that sleeps, or that has taken a sock off an accept queue and not yet put it into its new
socket. -/
inductive Call
  | connect (sock id : ℕ)
  | accept (sock newsock id : ℕ)
  | handOver (sock newsock id : ℕ)
  | read (sock id : ℕ) (len rlen : ℤ)
deriving DecidableEq, Repr

@[simp] def Call.acceptor : Call → Option ℕ
  | .accept _ _ i => some i
  | _ => none

structure Host where
  stack : Local
  defport : UInt16
  sockets : ℕ → Option Socket
  nextSocket : ℕ
  calls : List Call

abbrev Host.put (h : Host) (k : ℕ) (so : Option Socket) : Host :=
  { h with sockets := Function.update h.sockets k so }

abbrev Host.add (h : Host) (so : Socket) : Host := { h.put h.nextSocket so with nextSocket := h.nextSocket + 1 }

structure Config extends Net where
  ipaddr : RtEntry → UInt32
  localAddress : UInt32 → Bool

variable {α : Type}

def onStack (x : Prog Local α) : Prog Host α := fun h =>
  (x h.stack).map (fun p => (p.1, { h with stack := p.2 }))

lemma onStack_inv {x : Prog Local α} {a : α} {h h' : Host} (hrun : onStack x h = .ok (a, h')) :
    x h.stack = .ok (a, h'.stack) := by
  cases hx : x h.stack with
  | error e => simp [onStack, hx, Except.map] at hrun
  | ok p =>
    simp only [onStack, hx, Except.map] at hrun
    cases hrun
    rfl

def getSocket (k : ℕ) : Prog Host Socket := fun h =>
  match h.sockets k with
  | none => .error .useAfterFree
  | some so => .ok (so, h)

def setSocket (k : ℕ) (so : Option Socket) : Prog Host Unit := fun h =>
  .ok ((), h.put k so)

def sleep (call : Call) : Prog Host Unit := fun h => .ok ((), { h with calls := call :: h.calls })

def opened (k : ℕ) : Prog Host ℕ := do
  let so ← getSocket k
  if so.dead then fault .useAfterFree
  else match so.sk with
    | none => fault .nullPointer
    | some id => return id

section Inversions

variable {h h' : Host} {k : ℕ}

lemma getSocket_inv {so : Socket} (hrun : getSocket k h = .ok (so, h')) : h.sockets k = some so ∧ h' = h := by
  rw [getSocket] at hrun
  split at hrun
  · simp at hrun
  · rename_i so' hso
    cases hrun
    exact ⟨hso, rfl⟩

lemma opened_inv {i : ℕ} (hrun : opened k h = .ok (i, h')) :
    h' = h ∧ ∃ so, h.sockets k = some so ∧ so.sk = some i ∧ so.dead = false := by
  obtain ⟨so, h1, hget, hrest⟩ := bind_inv hrun
  obtain ⟨hso, rfl⟩ := getSocket_inv hget
  split_ifs at hrest with hd
  · simp [fault] at hrest
  · cases hs : so.sk with
    | none => simp [hs, fault] at hrest
    | some id =>
      simp only [hs] at hrest
      cases hrest
      exact ⟨rfl, so, hso, hs, eq_false_of_ne_true hd⟩

end Inversions

section Calls

variable (cfg : Config)

def allocSocket : Prog Host ℕ := fun h =>
  .ok (h.nextSocket, h.add ⟨none, false, 1⟩)

def IP_P_TCP : ℕ := 6

def newSock : TcpSock :=
  { tcpAllocSock with
    sk := { tcpAllocSock.sk with protocol := UInt8.ofNat IP_P_TCP, recvWait := true, refcnt := 1 } }

def allocSock : Prog Local ℕ := fun s =>
  .ok (s.tcp.nextSock, { s with tcp := { s.tcp with
    socks := Function.update s.tcp.socks s.tcp.nextSock (some newSock)
    nextSock := s.tcp.nextSock + 1
    tcpId := s.tcp.tcpId + 1 } })

def socket (protocol : ℕ) : Prog Host Unit :=
  if protocol ≠ 0 ∧ protocol ≠ IP_P_TCP then pure ()
  else do
    let k ← allocSocket
    let id ← onStack allocSock
    setSocket k (some ⟨some id, false, 1⟩)

def setPort (id : ℕ) (nport : UInt16) : Prog Host Bool := fun h => do
  let ((ok, defport), s) ← tcpSetSport cfg.env id nport h.defport h.stack
  return (ok, { h with stack := s, defport := defport })

def setAddr (id : ℕ) (f : Sock → Sock) : Prog Host Unit :=
  onStack (modifySk cfg.env id (fun t => { t with sk := f t.sk }))

def bind (k : ℕ) (saddr : UInt32) (sport : UInt16) : Prog Host Unit := do
  let id ← opened k
  let tsk ← onStack (getSk cfg.env id)
  if tsk.sk.skSport ≠ 0 then pure ()
  else if !cfg.localAddress saddr then pure ()
  else
    setAddr cfg id (fun sk => { sk with skSaddr := saddr })
    if ← setPort cfg id sport then setAddr cfg id (fun sk => { sk with skDaddr := 0, skDport := 0 })
    else setAddr cfg id (fun sk => { sk with skSaddr := 0 })

def listen (k : ℕ) (backlog : ℤ) : Prog Host Unit := do
  let id ← opened k
  if backlog < 0 then pure ()
  else
    let _ ← onStack (tcpOpsListen cfg.env id backlog)

def getRef (k : ℕ) : Prog Host Unit := do
  let so ← getSocket k
  setSocket k (some { so with refcnt := so.refcnt + 1 })

def inetClose (so : Socket) : Prog Local Unit :=
  match so.sk with
  | none => pure ()
  | some id => do
    tcpClose cfg.env id
    freeSock cfg.env id

def freeSocket (k : ℕ) : Prog Host Unit := do
  let so ← getSocket k
  if so.refcnt - 1 ≤ 0 then
    onStack (inetClose cfg so)
    setSocket k none
  else setSocket k (some { so with refcnt := so.refcnt - 1 })

def close (k : ℕ) : Prog Host Unit := do
  let _ ← opened k
  let so ← getSocket k
  setSocket k (some { so with dead := true })
  freeSocket cfg k

def autobind (id : ℕ) (tsk : TcpSock) : Prog Host Bool :=
  if tsk.sk.skSport = 0 then setPort cfg id 0 else return true

-- `get_socket` and `free_socket` around a call that does not sleep cancel out.
def connect (k : ℕ) (daddr : UInt32) (dport : UInt16) : Prog Host Unit := do
  let id ← opened k
  let tsk ← onStack (getSk cfg.env id)
  if dport = 0 ∨ daddr = 0 ∨ tsk.sk.skDport ≠ 0 then pure ()
  else if !(← autobind cfg id tsk) then pure ()
  else match cfg.route daddr with
    | none => pure ()
    | some rt =>
      setAddr cfg id (fun sk => { sk with skDst := some rt, skSaddr := cfg.ipaddr rt })
      if ← onStack (tcpConnect cfg.env id daddr dport) then
        onStack (sleepOn cfg.env id)
        getRef k
        sleep (.connect k id)

def connectWoken (k id : ℕ) : Prog Host Unit := do
  let so ← getSocket k
  let _ ← onStack (tcpConnectWoken cfg.env id so.dead)
  freeSocket cfg k

def acceptTurn (k new id : ℕ) : Prog Host Unit := do
  match ← onStack (tcpAccept cfg.env id) with
  | none => sleep (.accept k new id)
  | some newsk => sleep (.handOver k new newsk)

def accept (k : ℕ) : Prog Host Unit := do
  let id ← opened k
  getRef k
  let new ← allocSocket
  acceptTurn cfg k new id

def acceptWoken (k new id : ℕ) : Prog Host Unit := do
  onStack (modifySk cfg.env id (fun t => { t with waitAccept := false }))
  if (← getSocket k).dead then
    setSocket new none
    freeSocket cfg k
  else acceptTurn cfg k new id

def handOver (k new newsk : ℕ) : Prog Host Unit := do
  onStack (getSock cfg.env newsk)
  setSocket new (some ⟨some newsk, false, 1⟩)
  freeSocket cfg k

def write (k : ℕ) (buf : List UInt8) (len : ℤ) : Prog Host Unit := do
  let id ← opened k
  if len ≤ 0 then pure ()
  else
    let _ ← onStack (tcpSendBuf cfg.env id buf len)

def readEnds (k id : ℕ) (len : ℤ) : Recv → Prog Host Unit
  | .returns _ => freeSocket cfg k
  | .sleeps rlen => sleep (.read k id len rlen)

def read (k : ℕ) (len : ℤ) : Prog Host Unit := do
  let id ← opened k
  if len ≤ 0 then pure ()
  else
    getRef k
    readEnds cfg k id len (← onStack (tcpRecvBuf cfg.env id len))

def readWoken (k id : ℕ) (len rlen : ℤ) : Prog Host Unit := do
  let so ← getSocket k
  readEnds cfg k id len (← onStack (tcpRecvBufWoken cfg.env id len rlen so.dead))

def goOn : Call → Prog Host Unit
  | .connect k id => connectWoken cfg k id
  | .accept k new id => acceptWoken cfg k new id
  | .handOver k new newsk => handOver cfg k new newsk
  | .read k id len rlen => readWoken cfg k id len rlen

end Calls

inductive Event
  | socket (protocol : ℕ)
  | bind (k : ℕ) (saddr : UInt32) (sport : UInt16)
  | listen (k : ℕ) (backlog : ℤ)
  | connect (k : ℕ) (daddr : UInt32) (dport : UInt16)
  | accept (k : ℕ)
  | read (k : ℕ) (len : ℤ)
  | write (k : ℕ) (buf : List UInt8) (len : ℤ)
  | close (k : ℕ)
  | wake (call : Call)
  | segment (pkb : Pkbuf) (seg : TcpSegment)
  | tick (delta : ℤ)

def wake (cfg : Config) (call : Call) : Prog Host Unit := fun h =>
  if call ∈ h.calls then goOn cfg call { h with calls := h.calls.erase call } else .ok ((), h)

def exec (cfg : Config) : Event → Prog Host Unit
  | .socket protocol => socket protocol
  | .bind k saddr sport => bind cfg k saddr sport
  | .listen k backlog => listen cfg k backlog
  | .connect k daddr dport => connect cfg k daddr dport
  | .accept k => accept cfg k
  | .read k len => read cfg k len
  | .write k buf len => write cfg k buf len
  | .close k => close cfg k
  | .wake call => wake cfg call
  | .segment pkb seg => onStack (tcpRecv cfg.env pkb seg)
  | .tick delta => onStack (Timer.tcpTimewaitTimer cfg.env delta)

def ISS : UInt32 := 12345678

def boot : Host where
  stack := ⟨⟨fun _ => none, 0, [], [], [], Ports.TCP_BPORTS, ISS, 0, []⟩, []⟩
  defport := Ports.TCP_BPORT_MIN
  sockets _ := none
  nextSocket := 0
  calls := []

/-- Runs whose steps all meet `ok`. Routes and addresses may change from step to step. -/
inductive Reached (ok : Host → Event → Prop) : Host → Prop
  | boot : Reached ok boot
  | step {h h' : Host} {e : Event} {cfg : Config} : Reached ok h → ok h e →
      exec cfg e h = .ok ((), h') → Reached ok h'

lemma Reached.mono {ok ok' : Host → Event → Prop} {h : Host} (hr : Reached ok h)
    (hok : ∀ h e, ok h e → ok' h e) : Reached ok' h := by
  induction hr with
  | boot => exact .boot
  | step _ hmet hrun ih => exact ih.step (hok _ _ hmet) hrun

end Tapip.Sockets.Inet
