import Tapip.Lib.Cbuf
import Tapip.Net.Pkb

/-! Socks, the transmission control block and segments (include/sock.h, include/tcp.h). -/

namespace Tapip.Tcp

open Net.Pkb Lib

inductive TcpState
  | closed
  | listen
  | synRecv
  | synSent
  | established
  | closeWait
  | lastAck
  | finWait1
  | finWait2
  | closing
  | timeWait
deriving DecidableEq, Repr

structure Sock where
  protocol : UInt8
  skSaddr : UInt32
  skDaddr : UInt32
  skSport : UInt16
  skDport : UInt16
  skDst : Option RtEntry
  recvQueue : List Pkbuf
  recvWait : Bool
  hashed : Bool
  refcnt : ℤ
deriving DecidableEq, Repr

-- Written over the first bytes of the buffer of a segment that waits.
structure TcpReassHead where
  pkb : Pkbuf
  data : List UInt8
  seq : UInt32
  len : UInt32
deriving DecidableEq, Repr

inductive Parent
  | none
  | sock (id : ℕ)
  | dead
deriving DecidableEq, Repr

structure TcpSock where
  sk : Sock
  bhashed : Bool
  acceptBacklog : ℤ
  backlog : ℤ
  listenQueue : List ℕ
  acceptQueue : List ℕ
  timewait : Option ℤ
  waitAccept : Bool
  waitConnect : Bool
  parent : Parent
  push : Bool
  ackNow : Bool
  ackDelay : Bool
  rcvBuf : Option Cbuf
  rcvReass : List TcpReassHead
  sndUna : UInt32
  sndNxt : UInt32
  sndWnd : UInt32
  sndUp : UInt32
  sndWl1 : UInt32
  sndWl2 : UInt32
  iss : UInt32
  rcvNxt : UInt32
  rcvWnd : UInt32
  irs : UInt32
  state : TcpState
deriving DecidableEq, Repr

def TCP_DEFAULT_WINDOW : UInt32 := 4096

def tcpAllocSock : TcpSock where
  sk := ⟨0, 0, 0, 0, 0, none, [], false, false, 0⟩
  bhashed := false
  acceptBacklog := 0
  backlog := 0
  listenQueue := []
  acceptQueue := []
  timewait := none
  waitAccept := false
  waitConnect := false
  parent := .none
  push := false
  ackNow := false
  ackDelay := false
  rcvBuf := none
  rcvReass := []
  sndUna := 0
  sndNxt := 0
  sndWnd := 0
  sndUp := 0
  sndWl1 := 0
  sndWl2 := 0
  iss := 0
  rcvNxt := 0
  rcvWnd := TCP_DEFAULT_WINDOW
  irs := 0
  state := .closed

structure TcpSegment where
  seq : UInt32
  ack : UInt32
  lastseq : UInt32
  len : UInt32
  dlen : UInt32
  wnd : UInt32
  text : List UInt8
  iphdrSrc : UInt32
  iphdrDst : UInt32
  tcphdrSrc : UInt16
  tcphdrDst : UInt16
  fin : Bool
  syn : Bool
  rst : Bool
  psh : Bool
  ackBit : Bool
deriving DecidableEq, Repr

def toInt (x : UInt32) : ℤ := if x.toNat < 2 ^ 31 then x.toNat else x.toNat - 2 ^ 32

lemma toInt_le (x : UInt32) : toInt x ≤ x.toNat := by
  simp only [toInt]
  split <;> omega

def seqCheck (seg : TcpSegment) (tsk : TcpSock) : Bool :=
  let rcvEnd := tsk.rcvNxt + (if tsk.rcvWnd = 0 then 1 else tsk.rcvWnd)
  decide (seg.seq < rcvEnd) && decide (tsk.rcvNxt ≤ seg.lastseq)

end Tapip.Tcp
