import Tapip.Foundation.Refcount
import Tapip.Ip.Frag
import Tapip.Tcp.World

/-! The state of the whole stack, its packet buffers and its net devices (net/pkb.c, net/netdev.c,
net/loop.c, include/arp.h). -/

namespace Tapip.Net

open Foundation.Bytes Foundation.Program Foundation.Refcount ByteOrder Pkb Tcp Ip.Frag

structure Netdev where
  netMtu : ℤ
  netIpaddr : UInt32
  netMask : UInt32
  netHwaddr : List UInt8
deriving DecidableEq, Repr

inductive ArpState
  | free
  | waiting
  | resolved
deriving DecidableEq, Repr

structure ArpEntry where
  aeList : List Pkbuf
  aeDev : Option ℕ
  aeRetry : ℤ
  aeTtl : ℤ
  aeState : ArpState
  aePro : UInt16
  aeIpaddr : UInt32
  aeHwaddr : List UInt8
deriving DecidableEq, Repr

/-- A UDP or raw sock; `rxCb` is a callback at its socket. -/
structure InetSock where
  sk : Sock
  rxCb : Bool
deriving DecidableEq, Repr

structure Stack where
  pkbs : Ledger
  netDevices : List Netdev
  sent : List (ℕ × List UInt8)
  rtHead : List RtEntry
  arpCache : List ArpEntry
  arpNext : ℕ
  fragHead : List Fragment
  ipid : UInt16
  socks : List (Option InetSock)
  udpTable : List ℕ
  rawTable : List ℕ
  tcp : TcpWorld

namespace Stack

def empty : Stack := ⟨⟨fun _ => 0, 0, 0, 0⟩, [], [], [], [], 0, [], 0, [], [], [], ⟨fun _ => none, 0, [], [], [], 0, 0, 0, []⟩⟩

def MAX_PKBS : ℤ := 200000

def countPkb : Prog Stack ℕ := fun s =>
  let pkbs := s.pkbs.alloc
  if pkbs.allocs - pkbs.frees > MAX_PKBS then .error .exit
  else .ok (s.pkbs.next, { s with pkbs := pkbs })

def allocPkb (size : ℤ) : Prog Stack Pkbuf := do
  let addr ← countPkb
  return Pkb.allocPkb addr size.toNat

def PKB_SZ : ℕ := 52

-- Only `pk_len` bytes are copied, the fields in front of the data among them; what lies behind them
-- is read as zero.
def copyPkb (pkb : Pkbuf) : Prog Stack Pkbuf := do
  let addr ← countPkb
  return { pkb with
    pkAddr := addr
    pkIndev := if 36 ≤ pkb.pkLen then pkb.pkIndev else none
    pkRtdst := if 44 ≤ pkb.pkLen then pkb.pkRtdst else none
    pkData := pkb.pkData.take (pkb.pkLen - PKB_SZ) }

def freePkb (pkb : Pkbuf) : Prog Stack Unit := fun s =>
  if s.pkbs.refcnt pkb.pkAddr ≤ 0 then .error .useAfterFree
  else .ok ((), { s with pkbs := s.pkbs.free pkb.pkAddr })

def getPkb (pkb : Pkbuf) : Prog Stack Unit := fun s =>
  if s.pkbs.refcnt pkb.pkAddr ≤ 0 then .error .useAfterFree
  else .ok ((), { s with pkbs := s.pkbs.get pkb.pkAddr })

def getDev (dev : ℕ) : Prog Stack Netdev := fun s =>
  match s.netDevices[dev]? with
  | none => .error .nullPointer
  | some nd => .ok (nd, s)

end Stack

section Tx

/-- The `net_in` that the loopback device calls. -/
abbrev NetIn := ℕ → Pkbuf → Prog Stack Unit

variable (netIn : NetIn)

def loop : ℕ := 0

def loopXmit (dev : ℕ) (pkb : Pkbuf) : Prog Stack Unit := do
  Stack.getPkb pkb
  netIn dev pkb

def xmit (dev : ℕ) (pkb : Pkbuf) : Prog Stack Unit :=
  if dev = loop then loopXmit netIn dev pkb
  else fun s => .ok ((), { s with sent := s.sent ++ [(dev, pkb.pkData.take pkb.pkLen)] })

def netdevTx (dev : ℕ) (pkb : Pkbuf) (len : ℕ) (proto : UInt16) (dst : List UInt8) :
    Prog Stack Unit := do
  let nd ← Stack.getDev dev
  let data := storeShortAt pkb.pkData 12 (htons proto)
  let data := memcpy (memcpy data 0 dst) 6 nd.netHwaddr
  let pkb := { pkb with pkData := data, pkLen := len + ETH_HRD_SZ }
  xmit netIn dev pkb
  Stack.freePkb pkb

end Tx

def dropAll (_ : ℕ) (_ : Pkbuf) : Prog Stack Unit := pure ()

end Tapip.Net
