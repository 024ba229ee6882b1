import Tapip.Tcp.In
import Tapip.Tcp.Session

/-! What the steps of segment arrival leave alone, and where their answers go. -/

namespace Tapip.Tcp.Arrival

open Foundation.Program Connection Session

def takesText : TcpState → Bool
  | .synRecv | .established | .finWait1 | .finWait2 => true
  | _ => false

structure Touches (t t' : TcpSock) : Prop where
  recv : recvSide t' = recvSide t
  nxt : t'.sndNxt = t.sndNxt
  wnd : t'.sndWnd = t.sndWnd
  listen : t'.state = .listen → t.state = .listen
  text : takesText t'.state = true → takesText t.state = true

instance : IsPreorder TcpSock Touches where
  refl _ := ⟨rfl, rfl, rfl, fun h => h, fun h => h⟩
  trans _ _ _ h h' := ⟨h'.recv.trans h.recv, h'.nxt.trans h.nxt, h'.wnd.trans h.wnd,
    fun hl => h.listen (h'.listen hl), fun ht => h.text (h'.text ht)⟩

variable {net : Net} {id : ℕ} {α β : Type} {P : Sent → Prop} {seg : TcpSegment}

lemma touches_modifySk (j : ℕ) {f : TcpSock → TcpSock} (hf : ∀ t, Touches t (f t)) :
    Respects (Keeps id Touches P) (modifySk net.env j f) := keeps_modifySk hf

lemma touches_modifyWorld {f : TcpWorld → TcpWorld} (hf : ∀ w, (f w).socks = w.socks) :
    Respects (Keeps id Touches P) (modifyWorld net.env f) := keeps_modifyWorld hf

lemma touches_getSock (j : ℕ) : Respects (Keeps id Touches P) (getSock net.env j) :=
  touches_modifySk j fun _ => ⟨rfl, rfl, rfl, fun h => h, fun h => h⟩

lemma touches_freeSock (j : ℕ) : Respects (Keeps id Touches P) (freeSock net.env j) :=
  keeps_freeSock j fun _ _ => ⟨rfl, rfl, rfl, fun h => h, fun h => h⟩

lemma touches_close (j : ℕ) : Respects (Keeps id Touches P)
    (modifySk net.env j (fun t => { t with state := .closed })) :=
  touches_modifySk j fun _ => ⟨rfl, rfl, rfl, nofun, nofun⟩

lemma blind_touches : Blind Touches where
  refcnt _ _ := ⟨rfl, rfl, rfl, fun h => h, fun h => h⟩
  hashed _ _ := ⟨rfl, rfl, rfl, fun h => h, fun h => h⟩
  bhashed _ := ⟨rfl, rfl, rfl, fun h => h, fun h => h⟩
  dst _ _ := ⟨rfl, rfl, rfl, fun h => h, fun h => h⟩
  parent _ _ := ⟨rfl, rfl, rfl, fun h => h, fun h => h⟩
  queues _ _ _ := ⟨rfl, rfl, rfl, fun h => h, fun h => h⟩
  backlog _ _ := ⟨rfl, rfl, rfl, fun h => h, fun h => h⟩

lemma touches_tcpUnhash (j : ℕ) : Respects (Keeps id Touches P) (tcpUnhash net.env j) :=
  keeps_tcpUnhash blind_touches.refcnt blind_touches.hashed j

lemma touches_tcpUnbhash (j : ℕ) : Respects (Keeps id Touches P) (tcpUnbhash net.env j) :=
  keeps_tcpUnbhash blind_touches.refcnt blind_touches.bhashed j

lemma touches_lookupChain (isMatch : TcpSock → Bool) (chain : List ℕ) :
    Respects (Keeps id Touches P) (lookupChain net.env isMatch chain) := by
  induction chain with
  | nil => exact keeps_pure _
  | cons j rest ih =>
    apply Keeps.bind (keeps_getSk j)
    intro t
    split_ifs
    · exact Keeps.bind (touches_getSock j) fun _ => keeps_pure _
    · exact ih

lemma touches_tcpLookupSock (src dst : UInt32) (srcPort dstPort : UInt16) :
    Respects (Keeps id Touches P) (tcpLookupSock net.env src dst srcPort dstPort) := by
  apply Keeps.bind
  · exact Keeps.bind (keeps_getWorld) fun w => touches_lookupChain _ _
  · intro found
    cases found with
    | some j => exact keeps_pure _
    | none => exact Keeps.bind (keeps_getWorld) fun w => touches_lookupChain _ _

lemma touches_checkRst (j : ℕ) : Respects (Keeps id Touches P) (checkRst net.env j) :=
  keeps_checkRst blind_touches (fun _ => ⟨rfl, rfl, rfl, nofun, nofun⟩) j

lemma touches_tcpSendReset (seg : TcpSegment) : Respects (Keeps id Touches (Answers seg)) (tcpSendReset net.env seg) :=
  keeps_tcpSendReset blind_touches.dst seg

lemma touches_checkSyn (j : ℕ) (seg : TcpSegment) :
    Respects (Keeps id Touches (Answers seg)) (checkSyn net.env j seg) :=
  keeps_checkSyn blind_touches (fun _ _ => ⟨rfl, rfl, rfl, nofun, nofun⟩) j

lemma touches_tcpSetTimewaitTimer (j : ℕ) : Respects (Keeps id Touches P) (tcpSetTimewaitTimer net.env j) :=
  Keeps.bind (touches_modifySk j fun _ => ⟨rfl, rfl, rfl, nofun, nofun⟩) fun _ =>
    Keeps.bind (touches_modifyWorld fun _ => rfl) fun _ => touches_getSock j

end Tapip.Tcp.Arrival
