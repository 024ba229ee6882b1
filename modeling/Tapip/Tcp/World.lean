import Mathlib.Logic.Function.Basic
import Tapip.Tcp.Text

/-! The socks and tables of the TCP layer (tcp/tcp_sock.c, tcp/tcp_timer.c, socket/sock.c) and what
its functions call in the layers below. -/

namespace Tapip.Tcp

open Net.Pkb Foundation.Program

-- A hash table is the list of its entries, newest first: the chain an entry is on follows from the
-- ports and addresses that every search compares anyway.
structure TcpWorld where
  socks : ℕ → Option TcpSock
  nextSock : ℕ
  etable : List ℕ
  ltable : List ℕ
  btable : List ℕ
  bfree : ℤ
  iss : UInt32
  tcpId : ℤ
  timewait : List ℕ

structure OutTcp where
  src : UInt16
  dst : UInt16
  seq : UInt32
  ackn : UInt32
  fin : Bool
  syn : Bool
  rst : Bool
  psh : Bool
  ack : Bool
  window : UInt16
  data : List UInt8
deriving DecidableEq, Repr

structure TcpEnv (σ : Type) where
  world : σ → TcpWorld
  setWorld : TcpWorld → σ → σ
  allocPkb : ℤ → Prog σ Pkbuf
  freePkb : Pkbuf → Prog σ Unit
  getPkb : Pkbuf → Prog σ Unit
  rtLookup : UInt32 → Prog σ (Option RtEntry)
  netMtu : RtEntry → Prog σ ℤ
  ipSendOut : Pkbuf → RtEntry → UInt32 → UInt32 → OutTcp → Prog σ Unit

section Socks

variable {σ : Type} (env : TcpEnv σ)

def fault {α : Type} (e : Fault) : Prog σ α := fun _ => .error e

def getWorld : Prog σ TcpWorld := fun s => .ok (env.world s, s)

def modifyWorld (f : TcpWorld → TcpWorld) : Prog σ Unit :=
  fun s => .ok ((), env.setWorld (f (env.world s)) s)

def getSk (id : ℕ) : Prog σ TcpSock := fun s =>
  match (env.world s).socks id with
  | none => .error .useAfterFree
  | some tsk => .ok (tsk, s)

def modifySk (id : ℕ) (f : TcpSock → TcpSock) : Prog σ Unit := do
  let tsk ← getSk env id
  modifyWorld env (fun w => { w with socks := Function.update w.socks id (some (f tsk)) })

def setRefcnt (n : ℤ) (tsk : TcpSock) : TcpSock := { tsk with sk := { tsk.sk with refcnt := n } }

def setHashed (b : Bool) (tsk : TcpSock) : TcpSock := { tsk with sk := { tsk.sk with hashed := b } }

def getSock (id : ℕ) : Prog σ Unit := modifySk env id (fun tsk => setRefcnt (tsk.sk.refcnt + 1) tsk)

def freeSock (id : ℕ) : Prog σ Unit := do
  let tsk ← getSk env id
  if tsk.sk.refcnt - 1 ≤ 0 then
    modifyWorld env (fun w => { w with socks := Function.update w.socks id none })
  else modifySk env id (setRefcnt (tsk.sk.refcnt - 1))

def ehashConflict (w : TcpWorld) (tsk : TcpSock) : Bool :=
  w.etable.any (fun id => (w.socks id).any (fun tmp =>
    tsk.sk.skSaddr = tmp.sk.skSaddr && tsk.sk.skDaddr = tmp.sk.skDaddr &&
      tsk.sk.skSport = tmp.sk.skSport && tsk.sk.skDport = tmp.sk.skDport))

def tcpHash (id : ℕ) : Prog σ Bool := do
  let tsk ← getSk env id
  if tsk.state = .closed then return false
  else if tsk.state = .listen then
    modifySk env id (fun t => setHashed true (setRefcnt (t.sk.refcnt + 1) t))
    modifyWorld env (fun w => { w with ltable := id :: w.ltable })
    return true
  else if ehashConflict (← getWorld env) tsk then return false
  else
    modifySk env id (fun t => setHashed true (setRefcnt (t.sk.refcnt + 1) t))
    modifyWorld env (fun w => { w with etable := id :: w.etable })
    return true

-- `hlist_del` takes a node off the list it was put on last. A sock of both tables has come to the
-- listening ones last: `tcp_listen` may find it closed while `tcp_connect` still sleeps.
def unlinked (id : ℕ) (ltable etable : List ℕ) : List ℕ := if id ∈ ltable then etable else etable.erase id

lemma unlinked_eq_erase {id : ℕ} {ltable etable : List ℕ} (h : id ∈ ltable → id ∉ etable) :
    unlinked id ltable etable = etable.erase id := by
  rw [unlinked]
  split_ifs with hl
  · exact (List.erase_of_not_mem (h hl)).symm
  · rfl

def tcpUnhash (id : ℕ) : Prog σ Unit := do
  let tsk ← getSk env id
  if tsk.sk.hashed then
    modifySk env id (setHashed false)
    modifyWorld env (fun w => { w with
      ltable := w.ltable.erase id, etable := unlinked id w.ltable w.etable })
    freeSock env id
  let _ ← getSk env id

def tcpUnbhash (id : ℕ) : Prog σ Unit := do
  let tsk ← getSk env id
  if tsk.bhashed then
    modifySk env id (fun t => { t with bhashed := false })
    modifyWorld env (fun w => { w with bfree := w.bfree + 1, btable := w.btable.erase id })
    freeSock env id

def allocNewIss : Prog σ UInt32 := do
  let w ← getWorld env
  let iss := if w.iss + 1 ≥ (0xffffffff : UInt32) then 12345678 else w.iss + 1
  modifyWorld env (fun w => { w with iss := iss })
  return iss

def TCP_TIMEWAIT_TIMEOUT : ℤ := 2 * 1000000

def tcpSetTimewaitTimer (id : ℕ) : Prog σ Unit := do
  modifySk env id (fun t => { t with state := .timeWait, timewait := some TCP_TIMEWAIT_TIMEOUT })
  modifyWorld env (fun w => { w with timewait := id :: w.timewait })
  getSock env id

def wakeUp (wait : Bool) : Prog σ Unit := if wait then pure () else fault .nullPointer

end Socks

end Tapip.Tcp
